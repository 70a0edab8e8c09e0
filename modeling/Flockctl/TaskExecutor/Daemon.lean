import Flockctl.TaskExecutor.KeyPool
import Flockctl.Transition.Run

/-!
# The task executor and the daemon around it

`TaskExecutor.execute` and `_run`, cut at their `await`s. A call of `execute` is a record in
`calls`; between two `await`s it runs without interruption, so one event takes one call from one
`await` to the next. Calls whose promise has settled keep the order in which the microtask queue
holds them: a continued call goes to the end of the list, and resuming the foremost call that is
ready is what the event loop does. The events leave the choice open, so a theorem about all runs
covers every interleaving at the `await` points.

Around the executor stand the callers of `execute` (task creation, boot, the auto-executor, the
rate-limit timers, cold answers, retries and the queue drain) and the other writers of the status
column (the cancel, approve and reject routes, the question handlers, the boot sweeps). Each
status write, armed timer and started session is recorded in `trace`, latest first.
-/

namespace Flockctl.TaskExecutor

open Collections Ai Tasks

abbrev SessionId := ℕ

/-- What `reserveForTask` resolves with, or the message it rejects with. -/
inductive Reservation
  | granted (key : AiKey)
  | enqueue
  | failed (message : String)
  deriving DecidableEq, Repr

/-- The `await` a call of `execute` is suspended in. -/
inductive Phase
  /-- in `reserveForTask`, with the answer `selectKeyForTask` has already given -/
  | selecting (task : TaskKeys) (saturatedKeyIds : List KeyId) (selected : Except String AiKey)
  /-- in `execute`, with `reserveForTask` settled -/
  | reserved (reservation : Reservation)
  /-- in `_run`, waiting for `buildTaskRunContext` -/
  | building (key : AiKey) (requiresApproval : Option Bool)
  /-- in `_run`, waiting for `session.run()` -/
  | live (key : AiKey) (session : SessionId) (requiresApproval : Bool)
  /-- in `execute`, with `_run` settled and the `finally` block next -/
  | finishing (key : AiKey)

/-- A call of `execute` that has not returned. -/
structure Call where
  taskId : TaskId
  phase : Phase

/-- The fields of the `TaskExecutor` singleton, with the calls suspended in it. -/
structure Executor where
  pool : KeyPool := {}
  queue : List TaskId := []
  sessions : JsMap TaskId SessionId := JsMap.empty
  calls : List Call := []

/-- The statement that writes the status column. -/
inductive Writer
  | failBeforeStart | start | overBudget | contextFailed | finalizeSuccess | finalizeError
  | parkRateLimited | resumeFromRateLimit | questionEmitted | resolveQuestionHot
  | resolveQuestionCold | resetStale | orphanSweep | cancelRoute | approveRoute | rejectRoute
  deriving DecidableEq, Repr

/-- What the daemon does to the outside world on behalf of a task. -/
inductive Effect
  | status (writer : Writer) (taskId : TaskId) (before after : TaskStatus)
  | armTimer (taskId : TaskId) (resumeAt : ℕ)
  | startSession (taskId : TaskId) (session : SessionId)
  deriving DecidableEq, Repr

def Effect.taskId : Effect → TaskId
  | .status _ taskId _ _ => taskId
  | .armTimer taskId _ => taskId
  | .startSession taskId _ => taskId

/-- The database and the process. `overBudget` lists the projects `checkBudget` refuses,
`retries` the tasks whose `setTimeout(…, 0)` is pending, and `rejecting` the reject requests
that wait for their `git checkout`. -/
structure Daemon where
  tasks : TaskTable := TaskTable.empty
  ai : AiTables := {}
  overBudget : List (Option ProjectId) := []
  executor : Executor := {}
  timers : JsMap TaskId ℕ := JsMap.empty
  retries : List TaskId := []
  rejecting : List TaskId := []
  shuttingDown : Bool := false
  nextSession : SessionId := 0
  trace : List Effect := []

namespace Executor

/-- A call reaches its next `await`. -/
def push (executor : Executor) (call : Call) : Executor :=
  { executor with calls := executor.calls ++ [call] }

/-- `enqueue`. -/
def enqueue (executor : Executor) (id : TaskId) : Executor :=
  { executor with
    queue := if executor.queue.contains id then executor.queue else executor.queue ++ [id] }

/-- The calls without the one that has just been resumed. -/
def resumed (executor : Executor) (i : ℕ) : Executor :=
  { executor with calls := executor.calls.eraseIdx i }

end Executor

namespace Daemon

/-- The record of one `UPDATE tasks SET status`. -/
def statusEffect (d : Daemon) (writer : Writer) (id : TaskId) (next : TaskStatus) :
    List Effect :=
  match d.tasks.get id with
  | none => []
  | some row => [.status writer id row.status next]

/-- `UPDATE tasks SET status = …, … WHERE id = ?`. -/
def writeStatus (d : Daemon) (writer : Writer) (id : TaskId) (next : TaskStatus)
    (also : TaskRow → TaskRow := fun row ↦ row) : Daemon :=
  { d with
    tasks := d.tasks.update id fun row ↦ { also row with status := next }
    trace := d.statusEffect writer id next ++ d.trace }

def statusOf (d : Daemon) (id : TaskId) : Option TaskStatus := (d.tasks.get id).map (·.status)

/-- `validateTaskTransition` on the current row. -/
def mayBecome (d : Daemon) (id : TaskId) (next : TaskStatus) : Bool :=
  match d.statusOf id with
  | none => false
  | some status => validateTaskTransition status next

def push (d : Daemon) (call : Call) : Daemon := { d with executor := d.executor.push call }

/-- `rateLimitScheduler.schedule`. -/
def schedule (d : Daemon) (id : TaskId) (resumeAt : ℕ) : Daemon :=
  { d with
    timers := d.timers.set id resumeAt
    trace := .armTimer id resumeAt :: d.trace }

/-- The call `execute(id)` leaves behind at its first `await`: none when the row is gone. -/
def submit (d : Daemon) (id : TaskId) : List Call :=
  match d.tasks.get id with
  | none => []
  | some row => [⟨id, .selecting row.keys [] (selectKeyForTask d.ai row.keys [])⟩]

/-- `execute(id)` called by anyone. -/
def execute (d : Daemon) (id : TaskId) : Daemon :=
  { d with executor := { d.executor with calls := d.executor.calls ++ d.submit id } }

/-- The loop of `reserveForTask` from one answer of `selectKeyForTask` to the next. The test
of the slot counter and the reservation are not separated by an `await`. -/
def continueReserve (d : Daemon) (id : TaskId) (task : TaskKeys) (saturatedKeyIds : List KeyId) :
    Except String AiKey → Daemon
  | .error message =>
    d.push ⟨id, .reserved (if saturatedKeyIds.isEmpty then .failed message else .enqueue)⟩
  | .ok key =>
    if d.executor.pool.isSaturated key.id then
      d.push ⟨id, .selecting task (saturatedKeyIds ++ [key.id])
        (selectKeyForTask d.ai task (saturatedKeyIds ++ [key.id]))⟩
    else
      { d with
        executor := { d.executor with
          pool := d.executor.pool.reserve id key.id
          calls := d.executor.calls ++ [⟨id, .reserved (.granted key)⟩] } }

/-! ## `_run` -/

/-- `_run` from its start to the call of `buildTaskRunContext`. -/
def startRun (d : Daemon) (id : TaskId) (key : AiKey) : Daemon :=
  match d.tasks.get id with
  | none => d.push ⟨id, .finishing key⟩
  | some row =>
    if d.overBudget.contains row.keys.projectId then
      ((d.writeStatus .start id .running).writeStatus .overBudget id .failed).push
        ⟨id, .finishing key⟩
    else (d.writeStatus .start id .running).push ⟨id, .building key row.requiresApproval⟩

/-- `execute` once `reserveForTask` has settled. -/
def continueExecute (d : Daemon) (id : TaskId) : Reservation → Daemon
  | .failed _ => d.writeStatus .failBeforeStart id .failed
  | .enqueue => { d with executor := d.executor.enqueue id }
  | .granted key => d.startRun id key

/-- `_processQueue`: the queue is emptied and every task in it executed again. -/
def processQueue (d : Daemon) : Daemon :=
  { d with
    executor := { d.executor with
      queue := []
      calls := d.executor.calls ++ d.executor.queue.flatMap d.submit } }

/-- The `finally` block of `execute`. -/
def finishRun (d : Daemon) (id : TaskId) : Daemon :=
  processQueue { d with executor := { d.executor with pool := d.executor.pool.release id } }

/-- The microtask of the `i`-th suspended call runs. -/
def resume (d : Daemon) (i : ℕ) : Daemon :=
  match d.executor.calls[i]? with
  | some ⟨id, .selecting task saturatedKeyIds selected⟩ =>
    continueReserve { d with executor := d.executor.resumed i } id task saturatedKeyIds selected
  | some ⟨id, .reserved reservation⟩ =>
    continueExecute { d with executor := d.executor.resumed i } id reservation
  | some ⟨id, .finishing _⟩ => finishRun { d with executor := d.executor.resumed i } id
  | _ => d

/-- What `buildTaskRunContext` reads outside the task row: the approval default of the project
configuration and the commit the working directory stands at. -/
structure RunContext where
  projectRequiresApproval : Option Bool := none
  gitCommitBefore : Option String := none

/-- `_run` from the built context to `session.run()`. -/
def startSession (d : Daemon) (id : TaskId) (key : AiKey) (requiresApproval : Option Bool)
    (context : RunContext) : Daemon :=
  { d with
    tasks := d.tasks.update id fun row ↦
      { row with
        gitCommitBefore := context.gitCommitBefore.orElse fun _ ↦ row.gitCommitBefore
        keys := { row.keys with
          assignedKeyId := if key.id = 0 then row.keys.assignedKeyId else some key.id } }
    executor := { d.executor with
      sessions := d.executor.sessions.set id d.nextSession
      calls := d.executor.calls ++ [⟨id, .live key d.nextSession
        (requiresApproval.getD (context.projectRequiresApproval.getD false))⟩] }
    nextSession := d.nextSession + 1
    trace := .startSession id d.nextSession :: d.trace }

/-- `buildTaskRunContext` settles: `none` is a rejection. -/
def contextBuilt (d : Daemon) (i : ℕ) (outcome : Option RunContext) : Daemon :=
  match d.executor.calls[i]? with
  | some ⟨id, .building key requiresApproval⟩ =>
    match outcome with
    | none =>
      (writeStatus { d with executor := d.executor.resumed i } .contextFailed id .failed).push
        ⟨id, .finishing key⟩
    | some context =>
      startSession { d with executor := d.executor.resumed i } id key requiresApproval context
  | _ => d

/-! ## The end of a session -/

inductive ErrorName
  | timeoutError
  | abortError
  | other
  deriving DecidableEq, Repr

/-- An error thrown by `session.run()`: its name, whether its reason is `shutdown`, and the
resume time when `classifyLimit` recognises it as a provider limit. -/
structure RunError where
  name : ErrorName := .other
  shutdown : Bool := false
  limit : Option ℕ := none
  deriving DecidableEq, Repr

inductive SessionOutcome
  | success
  | error (err : RunError)
  deriving DecidableEq, Repr

/-- `classifyRunError`. -/
def classifyRunError : ErrorName → TaskStatus
  | .timeoutError => .timedOut
  | .abortError => .cancelled
  | .other => .failed

/-- `finalizeSuccess`. -/
def finalizeSuccess (d : Daemon) (id : TaskId) (requiresApproval : Bool) : Daemon :=
  if d.statusOf id = some .cancelled then d
  else d.writeStatus .finalizeSuccess id (if requiresApproval then .pendingApproval else .done)

/-- `finalizeError`. -/
def finalizeError (d : Daemon) (id : TaskId) (status : TaskStatus) : Daemon :=
  if d.statusOf id = some .cancelled then d else d.writeStatus .finalizeError id status

/-- `parkRateLimited`, which looks at no status. -/
def parkRateLimited (d : Daemon) (id : TaskId) (resumeAt : ℕ) : Daemon :=
  (d.writeStatus .parkRateLimited id .rateLimited fun row ↦
    { row with resumeAt := some resumeAt }).schedule id resumeAt

/-- The guard of `scheduleRetry`. -/
def canRetry (row : TaskRow) : Bool :=
  match row.maxRetries, row.retryCount with
  | some maxRetries, some retryCount => maxRetries != 0 && decide (retryCount < maxRetries)
  | _, _ => false

/-- The row `scheduleRetry` clones from the failed one. -/
def retryRow (failedTaskId : TaskId) (row : TaskRow) : TaskRow :=
  { keys := { projectId := row.keys.projectId }
    promptFile := row.promptFile
    workingDir := row.workingDir
    requiresApproval := row.requiresApproval
    maxRetries := row.maxRetries
    retryCount := some (row.retryCount.getD 0 + 1)
    parentTaskId := some failedTaskId }

/-- `scheduleRetry` and the `setTimeout` of its caller. -/
def scheduleRetry (d : Daemon) (id : TaskId) : Daemon :=
  match d.tasks.get id with
  | none => d
  | some row =>
    if canRetry row then
      { d with
        tasks := d.tasks.insert (retryRow id row)
        retries := d.retries ++ [d.tasks.nextId] }
    else d

/-- The `catch` block of `_run`. -/
def handleRunError (d : Daemon) (id : TaskId) (err : RunError) : Daemon :=
  if err.shutdown || (d.shuttingDown && err.name == .abortError) then d
  else match err.limit with
    | some resumeAt => d.parkRateLimited id resumeAt
    | none =>
      if classifyRunError err.name = .failed then (d.finalizeError id .failed).scheduleRetry id
      else d.finalizeError id (classifyRunError err.name)

def settleSession (d : Daemon) (id : TaskId) (requiresApproval : Bool) :
    SessionOutcome → Daemon
  | .success => d.finalizeSuccess id requiresApproval
  | .error err => d.handleRunError id err

/-- The `finally` block of `_run`, after which `execute` has its own `finally` left. -/
def closeSession (d : Daemon) (id : TaskId) (key : AiKey) : Daemon :=
  { d with
    executor := { d.executor with
      sessions := d.executor.sessions.delete id
      calls := d.executor.calls ++ [⟨id, .finishing key⟩] } }

/-- `session.run()` settles. -/
def sessionEnded (d : Daemon) (i : ℕ) (outcome : SessionOutcome) : Daemon :=
  match d.executor.calls[i]? with
  | some ⟨id, .live key _ requiresApproval⟩ =>
    (settleSession { d with executor := d.executor.resumed i } id requiresApproval
      outcome).closeSession id key
  | _ => d

/-- A live session emits a question: the status part of `handleQuestionEmitted`. -/
def questionEmitted (d : Daemon) (i : ℕ) : Daemon :=
  match d.executor.calls[i]? with
  | some ⟨id, .live _ _ _⟩ =>
    if d.mayBecome id .waitingForInput then d.writeStatus .questionEmitted id .waitingForInput
    else d
  | _ => d

/-- The status part of `answerQuestion`. `pending` says that `findPendingQuestionRow` found the
row, `accepted` that the live session took the answer. -/
def answerQuestion (d : Daemon) (id : TaskId) (pending accepted : Bool) : Daemon :=
  if pending then
    match d.executor.sessions.get id with
    | some _ =>
      if accepted && d.mayBecome id .running then d.writeStatus .resolveQuestionHot id .running
      else d
    | none =>
      if d.statusOf id = some .waitingForInput then
        (d.writeStatus .resolveQuestionCold id .queued).execute id
      else d
  else d

/-! ## Routes -/

/-- The columns a new task row takes from its creator (`POST /tasks`, a rerun, a schedule, a
plan task). -/
structure NewTask where
  keys : TaskKeys := {}
  promptFile : Option String := none
  workingDir : Option String := none
  requiresApproval : Option Bool := some false
  maxRetries : Option ℕ := some 0
  parentTaskId : Option TaskId := none
  deriving DecidableEq, Repr

def NewTask.toRow (task : NewTask) : TaskRow :=
  { keys := task.keys
    promptFile := task.promptFile
    workingDir := task.workingDir
    requiresApproval := task.requiresApproval
    maxRetries := task.maxRetries
    parentTaskId := task.parentTaskId }

/-- Insert a row in its default status and execute it. -/
def createTask (d : Daemon) (task : NewTask) : Daemon :=
  execute { d with tasks := d.tasks.insert task.toRow } d.tasks.nextId

/-- `TaskExecutor.cancel`; aborting a live session lets that session end on its own. -/
def cancelExecution (d : Daemon) (id : TaskId) : Daemon :=
  { d with
    executor := { d.executor with queue := d.executor.queue.erase id }
    timers := d.timers.delete id }

/-- `POST /tasks/:id/cancel`. -/
def cancelRoute (d : Daemon) (id : TaskId) : Daemon :=
  if d.mayBecome id .cancelled then
    (d.cancelExecution id).writeStatus .cancelRoute id .cancelled fun row ↦
      { row with resumeAt := none }
  else d

/-- `POST /tasks/:id/approve`. -/
def approveRoute (d : Daemon) (id : TaskId) : Daemon :=
  if d.mayBecome id .done then
    d.writeStatus .approveRoute id .done fun row ↦
      { row with approvalStatus := some .approved }
  else d

/-- The write that ends `POST /tasks/:id/reject`. -/
def rejectWrite (d : Daemon) (id : TaskId) : Daemon :=
  d.writeStatus .rejectRoute id .cancelled fun row ↦
    { row with approvalStatus := some .rejected }

/-- `if (task.gitCommitBefore && task.workingDir)`. -/
def needsRollback (row : TaskRow) : Bool :=
  row.gitCommitBefore.any (· != "") && row.workingDir.any (· != "")

/-- `POST /tasks/:id/reject` up to its `await` on the rollback, or to its end without one. -/
def rejectRoute (d : Daemon) (id : TaskId) : Daemon :=
  match d.tasks.get id with
  | none => d
  | some row =>
    if validateTaskTransition row.status .cancelled then
      if needsRollback row then { d with rejecting := d.rejecting ++ [id] } else d.rejectWrite id
    else d

/-- The rollback of a reject request is over; the row is not read again. -/
def rollbackDone (d : Daemon) (i : ℕ) : Daemon :=
  match d.rejecting[i]? with
  | none => d
  | some id => rejectWrite { d with rejecting := d.rejecting.eraseIdx i } id

/-- `resumeFromRateLimit`. -/
def resumeFromRateLimit (d : Daemon) (id : TaskId) : Daemon :=
  if d.statusOf id = some .rateLimited then
    (d.writeStatus .resumeFromRateLimit id .queued fun row ↦
      { row with resumeAt := none }).execute id
  else d

/-- The wake-up timer of a task fires. -/
def timerFired (d : Daemon) (id : TaskId) : Daemon :=
  match d.timers.get id with
  | none => d
  | some _ => resumeFromRateLimit { d with timers := d.timers.delete id } id

/-- The `setTimeout` of an automatic retry fires. -/
def retryFired (d : Daemon) (i : ℕ) : Daemon :=
  match d.retries[i]? with
  | none => d
  | some id => execute { d with retries := d.retries.eraseIdx i } id

/-! ## The auto-executor and boot -/

/-- A plan task the auto-executor dispatches: the execution id its file holds, and the row a
fresh execution would get. -/
structure PlanExecution where
  executionTaskId : Option TaskId
  task : NewTask

/-- The execution task `executePlanTask` reuses, if any. -/
def reusable (d : Daemon) (executionTaskId : Option TaskId) : Option TaskId :=
  executionTaskId.filter fun id ↦ (d.statusOf id).any isLiveExecution

/-- `executePlanTask`, from the look at the plan file to `taskExecutor.execute`. -/
def executePlanTask (d : Daemon) (plan : PlanExecution) : Daemon :=
  match d.reusable plan.executionTaskId with
  | some id => d.execute id
  | none => d.createTask plan.task

/-- One row of `cancelOrphanedExecutionTasks`. -/
def sweepOrphan (d : Daemon) (id : TaskId) : Daemon :=
  if (d.statusOf id).any isLiveExecution then d.writeStatus .orphanSweep id .cancelled else d

/-- The ids `resetStaleTasks` returns in a process without sessions. -/
def staleIds (d : Daemon) : List TaskId :=
  d.tasks.idsWhere fun row ↦ row.status == .running || row.status == .queued

def resetStale (d : Daemon) (id : TaskId) : Daemon := d.writeStatus .resetStale id .queued

/-- The status part of `resetStaleTasks`. -/
def resetStaleTasks (d : Daemon) : Daemon :=
  (d.tasks.idsWhere fun row ↦ row.status == .running).foldl resetStale d

def recoverTimer (d : Daemon) (id : TaskId) : Daemon :=
  match (d.tasks.get id).bind (·.resumeAt) with
  | none => d
  | some resumeAt => d.schedule id resumeAt

/-- The task half of `recoverFromDatabase`. -/
def recoverFromDatabase (d : Daemon) : Daemon :=
  (d.tasks.idsWhere fun row ↦ row.status == .rateLimited && row.resumeAt.isSome).foldl
    recoverTimer d

/-- The process is gone; the database stays. -/
def restarted (d : Daemon) : Daemon :=
  { d with
    executor := { pool := d.executor.pool.reset }
    timers := JsMap.empty
    retries := []
    rejecting := []
    shuttingDown := false }

/-- The boot sequence of `server-entry`: orphan sweep, stale reset, timer recovery, resumption of
the active milestones (whose first waves dispatch `resumed`), then `execute` of every id the
stale reset returned. Nothing in it awaits. -/
def boot (d : Daemon) (orphans : List TaskId) (resumed : List PlanExecution) : Daemon :=
  let swept := orphans.foldl sweepOrphan d.restarted
  let planned := resumed.foldl executePlanTask swept.resetStaleTasks.recoverFromDatabase
  swept.staleIds.foldl execute planned

/-- `cancelAll`, called on shutdown. -/
def shutdown (d : Daemon) : Daemon :=
  { d with
    executor := { d.executor with queue := [] }
    timers := JsMap.empty
    shuttingDown := true }

end Daemon

/-- What can happen next. -/
inductive Event
  | post (task : Daemon.NewTask)
  | execute (id : TaskId)
  | planTask (plan : Daemon.PlanExecution)
  | resume (i : ℕ)
  | contextBuilt (i : ℕ) (outcome : Option Daemon.RunContext)
  | sessionEnded (i : ℕ) (outcome : Daemon.SessionOutcome)
  | questionEmitted (i : ℕ)
  | answerQuestion (id : TaskId) (pending accepted : Bool)
  | cancel (id : TaskId)
  | approve (id : TaskId)
  | reject (id : TaskId)
  | rollbackDone (i : ℕ)
  | timerFired (id : TaskId)
  | retryFired (i : ℕ)
  | deleteProject (projectId : ProjectId)
  | edit (ai : AiTables) (overBudget : List (Option ProjectId))
  | shutdown
  | boot (orphans : List TaskId) (resumed : List Daemon.PlanExecution)

/-- One event of the event loop. -/
def step (d : Daemon) : Event → Daemon
  | .post task => d.createTask task
  | .execute id => d.execute id
  | .planTask plan => d.executePlanTask plan
  | .resume i => d.resume i
  | .contextBuilt i outcome => d.contextBuilt i outcome
  | .sessionEnded i outcome => d.sessionEnded i outcome
  | .questionEmitted i => d.questionEmitted i
  | .answerQuestion id pending accepted => d.answerQuestion id pending accepted
  | .cancel id => d.cancelRoute id
  | .approve id => d.approveRoute id
  | .reject id => d.rejectRoute id
  | .rollbackDone i => d.rollbackDone i
  | .timerFired id => d.timerFired id
  | .retryFired i => d.retryFired i
  | .deleteProject projectId => { d with tasks := d.tasks.deleteProject projectId }
  | .edit ai overBudget => { d with ai := ai, overBudget := overBudget }
  | .shutdown => d.shutdown
  | .boot orphans resumed => d.boot orphans resumed

/-- A daemon that has not been started yet, over any database and slot capacity. -/
def stopped (tasks : TaskTable) (ai : AiTables) (overBudget : List (Option ProjectId))
    (maxConcurrentPerKey : ℕ) : Daemon :=
  { tasks := tasks
    ai := ai
    overBudget := overBudget
    executor := { pool := { maxConcurrentPerKey := maxConcurrentPerKey } } }

end Flockctl.TaskExecutor
