import Flockctl.Sessions.AgentSession

/-!
# Agent questions

The `agent_questions` table, whose request ids are unique, the sessions of all tasks and chats,
and the two executors that connect them. A session may be displaced in its executor's map by a
later one of the same entity and still run. A run that ends removes the map's entry for its
entity, whichever session it holds.
-/

namespace Flockctl.Sessions

open Collections Paths Permissions Tasks

inductive QuestionStatus
  | pending
  | answered
  | cancelled
  deriving DecidableEq, Repr

/-- A row of `agent_questions` without its request id. `askedBy` records the session whose question
inserted it. -/
structure QuestionRow where
  ref : AgentRef
  status : QuestionStatus
  askedBy : ℕ
  deriving DecidableEq, Repr

def AgentRef.isChat : AgentRef → Bool
  | .chat _ => true
  | .task _ => false

/-- What questions depend on. `sessions` holds the sessions that run, under the number of their
creation, `registered` the maps of the two executors. A task without an entry in `statuses` is
queued; `deleted` are the tasks and chats whose rows are gone for good. -/
structure QuestionDesk where
  questions : JsMap RequestId QuestionRow := JsMap.empty
  sessions : JsMap ℕ AgentSession := JsMap.empty
  created : ℕ := 0
  registered : JsMap AgentRef ℕ := JsMap.empty
  statuses : JsMap TaskId TaskStatus := JsMap.empty
  deleted : List AgentRef := []

/-- How the run of a session ends. -/
inductive SessionOutcome
  | done
  | pendingApproval
  | failed
  | timedOut
  | cancelled
  | rateLimited
  | shutdown
  deriving DecidableEq, Repr

namespace QuestionDesk

variable (desk : QuestionDesk)

def statusOf (id : TaskId) : TaskStatus := (desk.statuses.get id).getD .queued

def writeStatus (id : TaskId) (status : TaskStatus) : QuestionDesk :=
  { desk with statuses := desk.statuses.set id status }

/-- The session an executor finds under an entity. -/
def registeredSession (ref : AgentRef) : Option (ℕ × AgentSession) :=
  match desk.registered.get ref with
  | none => none
  | some number => (desk.sessions.get number).map fun session ↦ (number, session)

/-- `new AgentSession(…)` and its registration in the executor of its entity. -/
def register (ref : AgentRef) (mode : PermissionMode) (roots : List AbsolutePath) :
    QuestionDesk :=
  { desk with
    sessions := desk.sessions.set desk.created
      { ref := ref, permissionMode := mode, allowedRoots := roots }
    created := desk.created + 1
    registered := desk.registered.set ref desk.created }

/-- A change of one running session. -/
def changeSession (number : ℕ) (change : AgentSession → AgentSession) : QuestionDesk :=
  { desk with sessions := desk.sessions.modify number change }

/-- `persistAgentQuestion`: a present request id violates the UNIQUE index and a deleted entity the
foreign key, and neither inserts a row. -/
def persistAgentQuestion (number : ℕ) (ref : AgentRef) (requestId : RequestId) : QuestionDesk :=
  if desk.questions.has requestId || desk.deleted.contains ref then desk
  else { desk with questions := desk.questions.set requestId ⟨ref, .pending, number⟩ }

/-- The listeners of `question_request`: `handleQuestionEmitted` of the task executor, and the one
of the chat executor. -/
def handleQuestionEmitted (number : ℕ) (ref : AgentRef) (requestId : RequestId) : QuestionDesk :=
  let persisted := desk.persistAgentQuestion number ref requestId
  match ref with
  | .chat _ => persisted
  | .task id =>
    if !desk.deleted.contains ref &&
        validateTaskTransition (desk.statusOf id) .waitingForInput then
      persisted.writeStatus id .waitingForInput
    else persisted

/-- A session asks the user. -/
def ask (number : ℕ) : QuestionDesk :=
  match desk.sessions.get number with
  | none => desk
  | some session =>
    let asking := desk.changeSession number fun session ↦ session.awaitUserAnswer.1
    match session.awaitUserAnswer.2 with
    | none => asking
    | some requestId => asking.handleQuestionEmitted number session.ref requestId

/-- `answerQuestion` of either executor. With the session in memory the answer goes to it. Without
one a waiting task is queued to be resumed, and a chat refuses. -/
def answerQuestion (ref : AgentRef) (requestId : RequestId) : QuestionDesk × Bool :=
  match desk.questions.get requestId with
  | none => (desk, false)
  | some row =>
    if row.ref = ref ∧ row.status = .pending then
      let answered := desk.questions.set requestId { row with status := .answered }
      match desk.registeredSession ref with
      | some (number, session) =>
        if (session.resolveQuestion requestId).2 then
          let resolved :=
            { desk.changeSession number fun session ↦ (session.resolveQuestion requestId).1 with
              questions := answered }
          match ref with
          | .chat _ => (resolved, true)
          | .task id =>
            if validateTaskTransition (desk.statusOf id) .running then
              (resolved.writeStatus id .running, true)
            else (resolved, true)
        else (desk, false)
      | none =>
        match ref with
        | .chat _ => (desk, false)
        | .task id =>
          if desk.statusOf id = .waitingForInput then
            ({ desk with questions := answered }.writeStatus id .queued, true)
          else (desk, false)
    else (desk, false)

/-- Every pending row of an entity becomes `cancelled`. -/
def cancelPendingQuestions (entities : AgentRef → Bool) : QuestionDesk :=
  { desk with
    questions := desk.questions.mapWithKey fun _ row ↦
      if entities row.ref && row.status = .pending then { row with status := .cancelled }
      else row }

/-- `cancel` of the chat executor. -/
def cancelChat (id : ℕ) : QuestionDesk :=
  let cancelled := desk.cancelPendingQuestions (· = .chat id)
  match desk.registered.get (.chat id) with
  | none => cancelled
  | some number => cancelled.changeSession number AgentSession.abort

/-- The status the end of a run writes for a task. A cancelled task keeps its status, unless the
run ends in a rate limit. -/
def settledStatus (current : TaskStatus) : SessionOutcome → TaskStatus
  | .done => if current = .cancelled then current else .done
  | .pendingApproval => if current = .cancelled then current else .pendingApproval
  | .failed => if current = .cancelled then current else .failed
  | .timedOut => if current = .cancelled then current else .timedOut
  | .cancelled => .cancelled
  | .rateLimited => .rateLimited
  | .shutdown => current

/-- The run of a session ends: the status of its task is written, and its executor's entry for the
entity goes. -/
def finish (number : ℕ) (outcome : SessionOutcome) : QuestionDesk :=
  match desk.sessions.get number with
  | none => desk
  | some session =>
    let ended :=
      { desk with
        sessions := desk.sessions.delete number
        registered := desk.registered.delete session.ref }
    match session.ref with
    | .chat _ => ended
    | .task id => ended.writeStatus id (settledStatus (desk.statusOf id) outcome)

/-- The daemon ends and starts again: the sessions are gone, `sweepOrphanedChatQuestions` cancels
the questions of chats, and `resetStaleTasks` queues the running tasks. -/
def restart : QuestionDesk :=
  { desk.cancelPendingQuestions AgentRef.isChat with
    sessions := JsMap.empty
    registered := JsMap.empty
    statuses := desk.statuses.mapWithKey fun _ status ↦
      if status = .running then .queued else status }

/-- The row of a task or chat is deleted, and its questions with it. -/
def deleteEntity (ref : AgentRef) : QuestionDesk :=
  { desk with
    questions := desk.questions.filter fun _ row ↦ decide (row.ref ≠ ref)
    deleted := ref :: desk.deleted }

end QuestionDesk

/-- What happens around agent questions. -/
inductive DeskEvent
  | register (ref : AgentRef) (mode : PermissionMode) (roots : List AbsolutePath)
  | ask (number : ℕ)
  | answer (ref : AgentRef) (requestId : RequestId)
  | canUseTool (number : ℕ) (toolName : String) (input : ToolInput)
  | resolvePermission (number : ℕ) (requestId : RequestId)
  | updatePermissionMode (number : ℕ) (mode : PermissionMode)
  | abort (number : ℕ)
  | cancelChat (id : ℕ)
  | finish (number : ℕ) (outcome : SessionOutcome)
  | restart
  | deleteEntity (ref : AgentRef)
  /-- any other write of a task's status; none of them writes `waiting_for_input` -/
  | writeStatus (id : TaskId) (status : TaskStatus)

def QuestionDesk.step (host : Host) (desk : QuestionDesk) : DeskEvent → QuestionDesk
  | .register ref mode roots => desk.register ref mode roots
  | .ask number => desk.ask number
  | .answer ref requestId => (desk.answerQuestion ref requestId).1
  | .canUseTool number toolName input =>
    desk.changeSession number fun session ↦ (session.canUseTool host toolName input).1
  | .resolvePermission number requestId =>
    desk.changeSession number fun session ↦ (session.resolvePermission requestId).1
  | .updatePermissionMode number mode =>
    desk.changeSession number fun session ↦ session.updatePermissionMode host mode
  | .abort number => desk.changeSession number AgentSession.abort
  | .cancelChat id => desk.cancelChat id
  | .finish number outcome => desk.finish number outcome
  | .restart => desk.restart
  | .deleteEntity ref => desk.deleteEntity ref
  | .writeStatus id status =>
    if status = .waitingForInput then desk else desk.writeStatus id status

end Flockctl.Sessions
