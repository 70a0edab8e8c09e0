import Flockctl.Worktrees.Manager
import Mathlib.Data.Finset.Erase
import Mathlib.Data.Finset.Insert

/-!
# The chat executor

Three entry points run a turn of a chat: the message endpoint, its streaming sibling and the
wake-up after a rate limit. Each builds one agent session, which the executor keeps under the id of
the chat while the turn lasts. The two endpoints claim the chat before they set the session up; the
wake-up does not. The executor keeps one session and one claim for a chat and nothing rejects a
second turn.
-/

namespace Flockctl.Chats

open Collections

abbrev ChatId := ℕ

/-- A turn, and the agent session it builds. -/
abbrev TurnId := ℕ

structure ChatExecutor where
  sessions : JsMap ChatId TurnId := JsMap.empty
  pendingSessions : Finset ChatId := ∅

namespace ChatExecutor

variable (e : ChatExecutor) (chat : ChatId)

def isRunning : Bool := e.sessions.has chat || decide (chat ∈ e.pendingSessions)

def claim : ChatExecutor :=
  if e.isRunning chat then e else { e with pendingSessions := insert chat e.pendingSessions }

def register (session : TurnId) : ChatExecutor where
  sessions := e.sessions.set chat session
  pendingSessions := e.pendingSessions.erase chat

def unregister : ChatExecutor where
  sessions := e.sessions.delete chat
  pendingSessions := e.pendingSessions.erase chat

end ChatExecutor

inductive Endpoint
  | messages
  | stream
  | resume
  deriving DecidableEq, Repr

/-- A turn sets its session up, runs it once it is registered, saves what the settled run has left,
and ends. -/
inductive TurnPhase
  | setup
  | running
  | settled
  | ended
  deriving DecidableEq, Repr

structure Turn where
  chat : ChatId
  endpoint : Endpoint
  phase : TurnPhase := .setup
  aborted : Bool := false
  deriving DecidableEq, Repr

/-- What an `unregister` has taken away: the session the executor kept for the chat, and the turns
that held the claim. -/
structure Removal where
  turn : TurnId
  session : Option TurnId
  claims : List TurnId
  deriving DecidableEq, Repr

/-- The executor with the turns of the daemon, ended ones included. -/
structure ChatDaemon where
  executor : ChatExecutor := {}
  turns : JsMap TurnId Turn := JsMap.empty
  removals : List Removal := []

namespace ChatDaemon

variable (s : ChatDaemon)

def setPhase (id : TurnId) (phase : TurnPhase) : ChatDaemon :=
  { s with turns := s.turns.modify id fun turn ↦ { turn with phase := phase } }

/-- The turns of the chat that have claimed it and are not registered. -/
def claimants (chat : ChatId) : List TurnId :=
  s.turns.entries.filterMap fun entry ↦
    if entry.2.chat = chat ∧ entry.2.phase = .setup ∧ entry.2.endpoint ≠ .resume then
      some entry.1
    else none

/-- The handler up to its claim, or the wake-up up to the construction of its session. -/
def start (id : TurnId) (chat : ChatId) (endpoint : Endpoint) : ChatDaemon :=
  if s.turns.has id then s
  else
    { s with
      turns := s.turns.set id ⟨chat, endpoint, .setup, false⟩
      executor :=
        match endpoint with
        | .messages | .stream => s.executor.claim chat
        | .resume => s.executor }

/-- A step between the claim and the registration throws, outside of any `try`. -/
def setupThrows (id : TurnId) : ChatDaemon :=
  match s.turns.get id with
  | some ⟨_, _, .setup, _⟩ => s.setPhase id .ended
  | _ => s

def register (id : TurnId) : ChatDaemon :=
  match s.turns.get id with
  | some ⟨chat, _, .setup, _⟩ =>
    { s.setPhase id .running with executor := s.executor.register chat id }
  | _ => s

/-- The promise of `session.run()` settles. -/
def settle (id : TurnId) : ChatDaemon :=
  match s.turns.get id with
  | some ⟨_, _, .running, _⟩ => s.setPhase id .settled
  | _ => s

/-- The streaming handler parks the chat before its last `try`, and that throws. -/
def parkThrows (id : TurnId) : ChatDaemon :=
  match s.turns.get id with
  | some ⟨_, .stream, .settled, _⟩ => s.setPhase id .ended
  | _ => s

/-- The `finally` of the handler. -/
def unregister (id : TurnId) : ChatDaemon :=
  match s.turns.get id with
  | some ⟨chat, _, .settled, _⟩ =>
    { s.setPhase id .ended with
      executor := s.executor.unregister chat
      removals :=
        ⟨id, s.executor.sessions.get chat,
          if chat ∈ s.executor.pendingSessions then s.claimants chat else []⟩ :: s.removals }
  | _ => s

def abort (id : TurnId) : ChatDaemon :=
  { s with turns := s.turns.modify id fun turn ↦ { turn with aborted := true } }

/-- `cancel` aborts the session the executor keeps. -/
def cancel (chat : ChatId) : ChatDaemon :=
  match s.executor.sessions.get chat with
  | none => s
  | some id => s.abort id

def cancelAll : ChatDaemon :=
  s.executor.sessions.entries.foldl (fun daemon entry ↦ daemon.abort entry.2) s

/-- The daemon ends with its turns, and boots with an empty executor. -/
def restart : ChatDaemon :=
  { s with
    executor := {}
    turns := s.turns.mapWithKey fun _ turn ↦ { turn with phase := .ended } }

end ChatDaemon

inductive ChatEvent
  | start (id : TurnId) (chat : ChatId) (endpoint : Endpoint)
  | setupThrows (id : TurnId)
  | register (id : TurnId)
  | settle (id : TurnId)
  | parkThrows (id : TurnId)
  | unregister (id : TurnId)
  | cancel (chat : ChatId)
  | cancelAll
  | restart

def ChatDaemon.step (s : ChatDaemon) : ChatEvent → ChatDaemon
  | .start id chat endpoint => s.start id chat endpoint
  | .setupThrows id => s.setupThrows id
  | .register id => s.register id
  | .settle id => s.settle id
  | .parkThrows id => s.parkThrows id
  | .unregister id => s.unregister id
  | .cancel chat => s.cancel chat
  | .cancelAll => s.cancelAll
  | .restart => s.restart

end Flockctl.Chats

/-!
# Deletion of chats

A chat goes with its row, its attachments and their files, and its session is cancelled. Deleting one
chat looks after its worktree first: a dirty one keeps the chat, and a clean one is removed. Deleting
many at once is a request of its own.
-/

namespace Flockctl.Chats

open Collections Worktrees

structure StoredChat where
  projectId : Option ℕ := none
  worktreePath : Option String := none
  worktreeBranch : Option String := none
  deriving DecidableEq, Repr

structure AttachmentRow where
  chat : ChatId
  path : String
  deriving DecidableEq, Repr

/-- The sessions the executor keeps for a chat are of that chat. -/
def ChatDaemon.Owned (daemon : ChatDaemon) : Prop :=
  ∀ chat id turn, daemon.executor.sessions.get chat = some id →
    daemon.turns.get id = some turn → turn.chat = chat

/-- Both handlers cancel what is running. -/
def cancelIfRunning (daemon : ChatDaemon) (id : ChatId) : ChatDaemon :=
  if daemon.executor.isRunning id then daemon.cancel id else daemon

theorem cancelIfRunning_owned {daemon : ChatDaemon} (howned : daemon.Owned) (id : ChatId) :
    (cancelIfRunning daemon id).Owned := by
  unfold cancelIfRunning ChatDaemon.cancel
  split
  · split
    · exact howned
    · rename_i session hsession
      intro chat other turn hother hturn
      rw [ChatDaemon.abort, JsMap.get_modify] at hturn
      split at hturn
      · rename_i hsame
        obtain ⟨stored, hstored, rfl⟩ := Option.map_eq_some_iff.mp hturn
        exact howned chat other stored hother (hsame ▸ hstored)
      · exact howned chat other turn hother hturn
  · exact howned

theorem cancelEach_owned {daemon : ChatDaemon} (howned : daemon.Owned) (ids : List ChatId) :
    (ids.foldl cancelIfRunning daemon).Owned := by
  induction ids generalizing daemon with
  | nil => exact howned
  | cons id ids ih => exact ih (cancelIfRunning_owned howned id)

/-- The tables, the attachment files, the repositories by the paths of their projects, and the daemon
with its sessions. -/
@[ext]
structure ChatStore where
  chats : JsMap ChatId StoredChat
  attachments : JsMap ℕ AttachmentRow := JsMap.empty
  files : List String := []
  projectPaths : JsMap ℕ String := JsMap.empty
  projects : JsMap String Project := JsMap.empty
  daemon : ChatDaemon := {}
  owned : daemon.Owned := by nofun

/-- What fails outside of the daemon: git calls of the cleanup and of the forced removal after it,
and unlinks. -/
structure DeleteFaults where
  cleanup : ChatId → Faults := fun _ ↦ {}
  removal : ChatId → Faults := fun _ ↦ {}
  unlink : String → Bool := fun _ ↦ false

inductive DeleteError
  | notFound
  | conflict
  deriving DecidableEq, Repr

namespace ChatStore

variable (s : ChatStore)

/-- The path of the project, the worktree and the branch of a chat that has all of them. -/
def worktree? (chat : StoredChat) : Option (String × String × String) :=
  (chat.worktreePath.filter fun path ↦ path ≠ "").bind fun path ↦
    (chat.worktreeBranch.filter fun branch ↦ branch ≠ "").bind fun branch ↦
      (chat.projectId.filter fun project ↦ project ≠ 0).bind fun project ↦
        ((s.projectPaths.get project).filter fun path ↦ path ≠ "").map (·, path, branch)

def listAttachmentsForChat (id : ChatId) : List AttachmentRow :=
  (s.attachments.entries.map Prod.snd).filter fun attachment ↦ attachment.chat = id

end ChatStore

/-- Unlinks each file; one that cannot be unlinked stays. -/
def deleteAttachmentFiles (unlinkFails : String → Bool) (rows : List AttachmentRow)
    (files : List String) : List String :=
  rows.foldl (fun files row ↦
    if unlinkFails row.path then files else files.filter fun file ↦ file ≠ row.path) files

namespace ChatStore

variable (faults : DeleteFaults) (s : ChatStore)

/-- The session is cancelled, the row goes with its attachments, and then their files go. -/
def removeChat (id : ChatId) : ChatStore :=
  { s with
    daemon := cancelIfRunning s.daemon id
    owned := cancelIfRunning_owned s.owned id
    chats := s.chats.delete id
    attachments := s.attachments.filter fun _ attachment ↦ attachment.chat ≠ id
    files := deleteAttachmentFiles faults.unlink (s.listAttachmentsForChat id) s.files }

/-- `DELETE /chats/:id` without `force`. -/
def deleteChat (id : ChatId) : Except DeleteError ChatStore :=
  match s.chats.get id with
  | none => .error .notFound
  | some chat =>
    match s.worktree? chat with
    | none => .ok (s.removeChat faults id)
    | some (projectPath, path, branch) =>
      let dirty := (s.projects.get projectPath).any fun project ↦
        (cleanupIfClean project path branch (faults.cleanup id)).2.reason = .dirty
      if dirty then .error .conflict
      else
        let projects := s.projects.modify projectPath fun project ↦
          Worktrees.deleteChat project path branch (faults.cleanup id) (faults.removal id)
        .ok (removeChat faults { s with projects := projects } id)

/-- What the request leaves; one that fails changes nothing. -/
def afterDelete (id : ChatId) : ChatStore :=
  match s.deleteChat faults id with
  | .ok next => next
  | .error _ => s

/-- The requests for the ids, one after the other. -/
def deleteEach (ids : List ChatId) : ChatStore := ids.foldl (afterDelete faults) s

end ChatStore

/-- The ids of a request that is accepted. -/
structure ChatIds where
  ids : List ChatId
  nonempty : ids ≠ []
  atMost : ids.length ≤ 200
  positive : ∀ id ∈ ids, 0 < id

structure BatchResult where
  deleted : ℕ
  missing : List ChatId
  requested : ℕ
  deriving DecidableEq, Repr

namespace ChatStore

variable (faults : DeleteFaults) (s : ChatStore)

/-- The chats go together: the sessions are cancelled, then the rows go, then the files. -/
def removeChats (present : List ChatId) : ChatStore :=
  { s with
    daemon := present.foldl cancelIfRunning s.daemon
    owned := cancelEach_owned s.owned present
    chats := s.chats.deleteAll present
    attachments := s.attachments.filter fun _ attachment ↦ attachment.chat ∉ present
    files := deleteAttachmentFiles faults.unlink
      ((s.attachments.entries.map Prod.snd).filter fun attachment ↦ attachment.chat ∈ present)
      s.files }

/-- `POST /chats/batch-delete`. -/
def batchDelete (request : ChatIds) : ChatStore × BatchResult :=
  let uniqueIds := request.ids.eraseDups
  let present := uniqueIds.filter fun id ↦ s.chats.has id
  let missing := uniqueIds.filter fun id ↦ !s.chats.has id
  if present.isEmpty then (s, ⟨0, missing, uniqueIds.length⟩)
  else (s.removeChats faults present, ⟨present.length, missing, uniqueIds.length⟩)

end ChatStore

end Flockctl.Chats
