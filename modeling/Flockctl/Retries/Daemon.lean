import Flockctl.Retries.Claims
import Flockctl.AutoExecutor.LookupRefinement
import Flockctl.Permissions.Resolver

/-!
# Automatic retries

The daemon with the columns of a task row that a retry clones, and with the plan store it repoints.
`syncPlan` and `repointPlan` import the auto-executor dynamically, so their work waits in a queue of
promises that settle in the order in which they were made; a restart loses those that wait. What a
task was inserted with, which retries were issued and what became of the plan links is recorded
beside the state.
-/

namespace Flockctl.Retries

open Collections Ai Tasks TaskExecutor AutoExecutor Plan Permissions

/-- The columns of a task row, next to those of `TaskRow`, that `scheduleRetry` clones. -/
structure TaskColumns where
  prompt : Option String := none
  agent : Option String := some "claude-code"
  model : Option String := none
  taskType : String := "execution"
  label : Option String := none
  timeoutSeconds : Option ℤ := none
  targetSliceSlug : Option String := none
  permissionMode : Option PermissionMode := none
  envVars : Option String := none
  isolation : Option String := none
  deriving DecidableEq, Repr

/-- The columns `scheduleRetry` gives the new row, beside those of `retryRow`. -/
def retryColumns (failedTaskId : TaskId) (updated : TaskRow) (columns : TaskColumns) :
    TaskColumns where
  prompt := columns.prompt
  agent := columns.agent
  model := columns.model
  taskType := columns.taskType
  label := some ("retry-" ++ toString failedTaskId ++ "-" ++
    toString (updated.retryCount.getD 0 + 1))
  timeoutSeconds := columns.timeoutSeconds
  targetSliceSlug := columns.targetSliceSlug
  permissionMode := columns.permissionMode
  envVars := columns.envVars
  isolation := columns.isolation

/-- The columns of a task row that decide how `execute` and `_run` run it. -/
structure RunRequest where
  keys : TaskKeys
  prompt : Option String
  promptFile : Option String
  agent : Option String
  model : Option String
  workingDir : Option String
  timeoutSeconds : Option ℤ
  envVars : Option String
  permissionMode : Option PermissionMode
  requiresApproval : Option Bool
  isolation : Option String
  deriving DecidableEq, Repr

/-- The run a row asks for, with the key it is pinned to. -/
def runRequest (row : TaskRow) (columns : TaskColumns) (pinnedKeyId : Option KeyId) :
    RunRequest where
  keys := { row.keys with assignedKeyId := pinnedKeyId }
  prompt := columns.prompt
  promptFile := row.promptFile
  agent := columns.agent
  model := columns.model
  workingDir := row.workingDir
  timeoutSeconds := columns.timeoutSeconds
  envVars := columns.envVars
  permissionMode := columns.permissionMode
  requiresApproval := row.requiresApproval
  isolation := columns.isolation

/-- A dynamic import of the auto-executor with what follows it. -/
inductive PlanPromise
  | syncPlan (taskId : TaskId)
  | repointPlan (previousTaskId newTaskId : TaskId)
  deriving DecidableEq, Repr

/-- A retry that has been issued: the run its task asked for and the run it asks for itself. -/
structure Retry where
  failed : TaskId
  retry : TaskId
  asked : RunRequest
  repeated : RunRequest
  deriving DecidableEq, Repr

/-- A repointing that has settled: the plan task that pointed at the previous task before, and those
that point at the two tasks after it. -/
structure Repointing where
  previousTaskId : TaskId
  newTaskId : TaskId
  before : Option PlanTaskLocation
  after : Option PlanTaskLocation
  left : Option PlanTaskLocation
  deriving DecidableEq, Repr

structure RetryDaemon where
  daemon : Daemon
  columns : TaskId → TaskColumns := fun _ ↦ {}
  plan : Resolver
  promises : List PlanPromise := []
  /-- the rows as they were inserted -/
  inserted : TaskId → Option TaskRow := fun _ ↦ none
  /-- the retries issued so far, latest first -/
  log : List Retry := []
  /-- the repointings settled so far, latest first -/
  repointings : List Repointing := []

/-- What can happen: an event of the daemon, with the other columns of the rows it inserts;
`PATCH /tasks/:id`; an operation on the plan store; and the first promise settles. -/
inductive RetryEvent
  | daemon (event : TaskExecutor.Event) (fresh : TaskId → TaskColumns)
  | patch (id : TaskId) (permissionMode : Option PermissionMode)
  | plan (event : ResolverEvent)
  | settle (listed : Bool)

/-- The tasks an event of the daemon calls `syncPlan` for. -/
def syncedPlans (d : Daemon) : TaskExecutor.Event → List TaskId
  | .resume i =>
    match d.executor.calls[i]? with
    | some ⟨id, .reserved (.failed _)⟩ => [id]
    | some ⟨id, .reserved (.granted _)⟩ =>
      if (d.tasks.get id).any fun row ↦ d.overBudget.contains row.keys.projectId then [id] else []
    | _ => []
  | .contextBuilt i none =>
    match d.executor.calls[i]? with
    | some ⟨id, .building _ _⟩ => [id]
    | _ => []
  | .sessionEnded i outcome =>
    match d.executor.calls[i]? with
    | some ⟨id, .live _ _ _⟩ =>
      match outcome with
      | .success => if d.statusOf id = some .cancelled then [] else [id]
      | .error err =>
        if err.shutdown || (d.shuttingDown && err.name == .abortError) || err.limit.isSome then []
        else [id]
    | _ => []
  | _ => []

namespace RetryDaemon

/-- The plan task the plan files link to an execution task. -/
def linked (w : RetryDaemon) (id : TaskId) : Option PlanTaskLocation := freshWalk w.plan.store id

/-- The key a task was pinned to when it was inserted. -/
def pinnedKeyId (w : RetryDaemon) (id : TaskId) : Option KeyId :=
  (w.inserted id).bind (·.keys.assignedKeyId)

/-- The retry of a failed task, as it is recorded. -/
def retryOf (w : RetryDaemon) (id : TaskId) (row : TaskRow) : Retry where
  failed := id
  retry := w.daemon.tasks.nextId
  asked := runRequest row (w.columns id) (w.pinnedKeyId id)
  repeated := runRequest (Daemon.retryRow id row) (retryColumns id row (w.columns id))
    (Daemon.retryRow id row).keys.assignedKeyId

/-- The other columns of the rows an event inserts: cloned for a retry, and otherwise those of its
creator. -/
def freshColumns (w : RetryDaemon) (event : TaskExecutor.Event) (fresh : TaskId → TaskColumns)
    (id : TaskId) : TaskColumns :=
  match w.daemon.retried event with
  | some (failed, row) => retryColumns failed row (w.columns failed)
  | none => fresh id

/-- The promises an event leaves pending, the plan sync of a failure before the repointing to its
retry. -/
def promisesOf (w : RetryDaemon) (event : TaskExecutor.Event) : List PlanPromise :=
  (syncedPlans w.daemon event).map .syncPlan ++
    match w.daemon.retried event with
    | some (failed, _) => [.repointPlan failed w.daemon.tasks.nextId]
    | none => []

/-- A restart loses the promises that wait. -/
def keptPromises (w : RetryDaemon) : TaskExecutor.Event → List PlanPromise
  | .boot _ _ => []
  | _ => w.promises

/-- An event of the daemon. -/
def advance (w : RetryDaemon) (event : TaskExecutor.Event) (fresh : TaskId → TaskColumns) :
    RetryDaemon :=
  let daemon := TaskExecutor.step w.daemon event
  let isNew (id : TaskId) : Bool :=
    decide (w.daemon.tasks.sequence < id) && decide (id ≤ daemon.tasks.sequence)
  { w with
    daemon := daemon
    columns := fun id ↦ if isNew id then w.freshColumns event fresh id else w.columns id
    promises := w.keptPromises event ++ w.promisesOf event
    inserted := fun id ↦ if isNew id then daemon.tasks.get id else w.inserted id
    log := match w.daemon.retried event with
      | some (failed, row) => w.retryOf failed row :: w.log
      | none => w.log }

/-- The first promise settles. `listed` says whether the frontmatter it writes stays within what
the lists read. -/
def settle (w : RetryDaemon) (listed : Bool) : RetryDaemon :=
  match w.promises with
  | [] => w
  | .syncPlan id :: rest =>
    { w with
      promises := rest
      plan := w.plan.syncPlanFromExecutionTask id (w.daemon.statusOf id) listed }
  | .repointPlan previousTaskId newTaskId :: rest =>
    let plan := w.plan.repointPlanTask previousTaskId newTaskId listed
    { w with
      promises := rest
      plan := plan
      repointings := ⟨previousTaskId, newTaskId, w.linked previousTaskId,
        freshWalk plan.store newTaskId, freshWalk plan.store previousTaskId⟩ :: w.repointings }

def step (w : RetryDaemon) : RetryEvent → RetryDaemon
  | .daemon event fresh => w.advance event fresh
  | .patch id permissionMode =>
    { w with
      columns := fun other ↦
        if other = id then { w.columns other with permissionMode := permissionMode }
        else w.columns other }
  | .plan event => { w with plan := w.plan.step event }
  | .settle listed => w.settle listed

/-- A daemon that has not been started yet on an empty tasks table. -/
def fresh (ai : AiTables) (overBudget : List (Option ProjectId)) (maxConcurrentPerKey : ℕ)
    (plan : Resolver) : RetryDaemon where
  daemon := stopped TaskTable.empty ai overBudget maxConcurrentPerKey
  plan := plan

end RetryDaemon

/-- The retries of a log, latest first, that descend from a task: its own, the retries of these,
and so on. -/
def retriesBelow (id : TaskId) : List Retry → List TaskId
  | [] => []
  | entry :: earlier =>
    if entry.failed = id ∨ entry.failed ∈ retriesBelow id earlier then
      entry.retry :: retriesBelow id earlier
    else retriesBelow id earlier

end Flockctl.Retries
