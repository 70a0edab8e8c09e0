import Flockctl.Permissions.Resolver
import Flockctl.Tasks.Table

/-!
# Agent sessions

A session works for a task or a chat. Whatever it needs from the user, a permission for a tool
call or the answer to a question, waits in one map under a request id, which is built from the
entity and from a counter of the session. Both counters start at zero in every session.
-/

namespace Flockctl.Sessions

open Collections Paths Permissions Tasks

/-- The entity a session works for. -/
inductive AgentRef
  | task (id : TaskId)
  | chat (id : ℕ)
  deriving DecidableEq, Repr

inductive RequestKind
  | permission
  | question
  deriving DecidableEq, Repr

/-- A request id: `perm-t5-1` is the first permission request of a session of task 5, and `q-c7-2`
the second question of a session of chat 7. -/
structure RequestId where
  kind : RequestKind
  ref : AgentRef
  number : ℕ
  deriving DecidableEq, Repr

/-- `InteractiveEntry`; the texts that are only shown are left out. -/
inductive InteractiveEntry
  | permission (toolName : String) (toolInput : ToolInput)
  | question

/-- An `AgentSession`. `autoResolved` records the tool calls a change of the mode has allowed, with
the mode; latest first. -/
structure AgentSession where
  ref : AgentRef
  permissionMode : PermissionMode := .auto
  allowedRoots : List AbsolutePath := []
  pendingInteractive : JsMap RequestId InteractiveEntry := JsMap.empty
  permissionCounter : ℕ := 0
  questionCounter : ℕ := 0
  aborted : Bool := false
  autoResolved : List (PermissionMode × String × ToolInput) := []

namespace AgentSession

/-- `canUseTool`. A prompt gets the next request id, also when the session is aborted and the call
is denied at once. -/
def canUseTool (host : Host) (s : AgentSession) (toolName : String) (input : ToolInput) :
    AgentSession × ToolDecision :=
  match decideTool host s.permissionMode toolName input s.allowedRoots with
  | .allow => (s, .allow)
  | .deny message => (s, .deny message)
  | .prompt =>
    let counted := { s with permissionCounter := s.permissionCounter + 1 }
    if s.aborted then (counted, .deny "Task cancelled")
    else
      ({ counted with
        pendingInteractive := s.pendingInteractive.set
          ⟨.permission, s.ref, s.permissionCounter + 1⟩ (.permission toolName input) }, .prompt)

/-- Whether `autoResolvePendingForMode` resolves an entry. -/
def autoResolves (host : Host) (mode : PermissionMode) (roots : List AbsolutePath) :
    InteractiveEntry → Bool
  | .question => false
  | .permission toolName input =>
    match mode with
    | .bypassPermissions => true
    | .acceptEdits => FILE_WRITE_TOOLS.contains toolName
    | .auto => (decideAuto host toolName input roots).isAllow
    | .default | .plan => false

/-- The tool calls of the entries that are resolved. -/
def resolvedCalls (host : Host) (mode : PermissionMode) (roots : List AbsolutePath)
    (entries : List (RequestId × InteractiveEntry)) : List (PermissionMode × String × ToolInput) :=
  entries.filterMap fun entry ↦
    match entry.2 with
    | .permission toolName input =>
      if autoResolves host mode roots (.permission toolName input) then
        some (mode, toolName, input)
      else none
    | .question => none

def autoResolvePendingForMode (host : Host) (s : AgentSession) (mode : PermissionMode) :
    AgentSession :=
  { s with
    pendingInteractive := s.pendingInteractive.filter fun _ entry ↦
      !autoResolves host mode s.allowedRoots entry
    autoResolved :=
      resolvedCalls host mode s.allowedRoots s.pendingInteractive.entries ++ s.autoResolved }

def updatePermissionMode (host : Host) (s : AgentSession) (mode : PermissionMode) :
    AgentSession :=
  if s.permissionMode = mode then s
  else autoResolvePendingForMode host { s with permissionMode := mode } mode

def resolvePermission (s : AgentSession) (requestId : RequestId) : AgentSession × Bool :=
  match s.pendingInteractive.get requestId with
  | some (.permission _ _) =>
    ({ s with pendingInteractive := s.pendingInteractive.delete requestId }, true)
  | _ => (s, false)

def resolveQuestion (s : AgentSession) (requestId : RequestId) : AgentSession × Bool :=
  match s.pendingInteractive.get requestId with
  | some .question =>
    ({ s with pendingInteractive := s.pendingInteractive.delete requestId }, true)
  | _ => (s, false)

/-- `awaitUserAnswer` up to the emission of `question_request`, which an aborted session leaves
out. -/
def awaitUserAnswer (s : AgentSession) : AgentSession × Option RequestId :=
  let requestId : RequestId := ⟨.question, s.ref, s.questionCounter + 1⟩
  let counted := { s with questionCounter := s.questionCounter + 1 }
  if s.aborted then (counted, none)
  else
    ({ counted with pendingInteractive := s.pendingInteractive.set requestId .question },
      some requestId)

/-- `abort`: the listener of every pending entry removes it. -/
def abort (s : AgentSession) : AgentSession :=
  { s with aborted := true, pendingInteractive := JsMap.empty }

end AgentSession

/-- What happens to one session. -/
inductive SessionEvent
  | canUseTool (toolName : String) (input : ToolInput)
  | resolvePermission (requestId : RequestId)
  | updatePermissionMode (mode : PermissionMode)
  | awaitUserAnswer
  | resolveQuestion (requestId : RequestId)
  | abort

def AgentSession.step (host : Host) (s : AgentSession) : SessionEvent → AgentSession
  | .canUseTool toolName input => (s.canUseTool host toolName input).1
  | .resolvePermission requestId => (s.resolvePermission requestId).1
  | .updatePermissionMode mode => s.updatePermissionMode host mode
  | .awaitUserAnswer => s.awaitUserAnswer.1
  | .resolveQuestion requestId => (s.resolveQuestion requestId).1
  | .abort => s.abort

end Flockctl.Sessions
