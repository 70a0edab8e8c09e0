import Flockctl.AutoExecutor.OrphanSweep
import Flockctl.AutoExecutor.PlanLookup
import Flockctl.AutoExecutor.Registry
import Flockctl.AutoExecutor.Waves

/-!
# The execution of a milestone

`executeMilestone` computes the waves of the slices once and awaits the slices of one wave before
it starts the next; `executeSlice` does the same with the plan tasks of a slice. A plan task that
is started awaits its execution task, and its promise settles on a terminal event, on a tick of
the stale check or on an abort. Both loops go on after `Promise.allSettled` whatever the promises
settled with. Everything between two waves is an event: what the task executor and the routes
write to tasks and plan files, the terminal events, the ticks, and the moment at which a loop
whose promises have settled is resumed.
-/

namespace Flockctl.AutoExecutor

open Collections Plan Tasks Ai Transition

/-- A plan task as `listPlanTasks` yields it; its slug is the key it is listed under. -/
structure PlanTaskNode where
  depends : List String := []
  status : PlanTaskStatus := .pending
  executionTaskId : Option YamlValue := none
  deriving DecidableEq, Repr

/-- A slice as `listSlices` yields it, with its plan tasks. -/
structure SliceNode where
  depends : List String := []
  status : SliceStatus := .pending
  planTasks : JsMap String PlanTaskNode := JsMap.empty

/-- A call of `executeSlice` at its `await`: the execution tasks its plan tasks wait for, and the
waves to come. -/
structure SliceRun where
  awaited : JsMap String TaskId := JsMap.empty
  waves : List (Wave String)

/-- A plan task whose execution task was created or started, or a slice that was started, with the
statuses its dependencies had. -/
inductive Dispatch
  | planTask (sliceSlug taskSlug : String) (dependencies : List (Option PlanTaskStatus))
  | slice (sliceSlug : String) (dependencies : List (Option SliceStatus))
  deriving DecidableEq, Repr

/-- A call of `executeMilestone` and what it works on. The slices are in listing order. -/
structure MilestoneExecution where
  run : MilestoneRun
  milestoneStatus : MilestoneStatus
  slices : JsMap String SliceNode
  tasks : TaskTable
  started : JsMap String SliceRun := JsMap.empty
  waves : List (Wave String)
  returned : Bool := false
  trace : List Dispatch := []

/-- The `DependencyItem`s of a listing. -/
def dependencyItems {Node : Type} (depends : Node → List String) (nodes : JsMap String Node) :
    List (DependencyItem String) :=
  nodes.entries.map fun entry ↦ ⟨entry.1, depends entry.2⟩

/-- The part of a partial update that the executor reads again. -/
structure PlanTaskChange where
  status : Option PlanTaskStatus := none
  executionTaskId : Option YamlValue := none
  deriving DecidableEq, Repr

def PlanTaskNode.update (change : PlanTaskChange) (node : PlanTaskNode) : PlanTaskNode :=
  { node with
    status := change.status.getD node.status
    executionTaskId := change.executionTaskId <|> node.executionTaskId }

namespace MilestoneExecution

/-- `listPlanTasks(…).find(t => t.slug === taskSlug)`. -/
def planTask (m : MilestoneExecution) (sliceSlug taskSlug : String) : Option PlanTaskNode :=
  (m.slices.get sliceSlug).bind (·.planTasks.get taskSlug)

def sliceStatus (m : MilestoneExecution) (sliceSlug : String) : Option SliceStatus :=
  (m.slices.get sliceSlug).map (·.status)

def planTaskStatus (m : MilestoneExecution) (sliceSlug taskSlug : String) :
    Option PlanTaskStatus :=
  (m.planTask sliceSlug taskSlug).map (·.status)

/-- The statuses of the plan tasks of a slice, in listing order. -/
def planTaskStatuses (m : MilestoneExecution) (sliceSlug : String) : List PlanTaskStatus :=
  match m.slices.get sliceSlug with
  | none => []
  | some slice => slice.planTasks.entries.map (·.2.status)

def updateSlice (m : MilestoneExecution) (sliceSlug : String) (status : SliceStatus) :
    MilestoneExecution :=
  { m with slices := m.slices.modify sliceSlug fun slice ↦ { slice with status := status } }

def updatePlanTask (m : MilestoneExecution) (sliceSlug taskSlug : String)
    (change : PlanTaskChange) : MilestoneExecution :=
  { m with
    slices := m.slices.modify sliceSlug fun slice ↦
      { slice with planTasks := slice.planTasks.modify taskSlug (·.update change) } }

def sliceItems (m : MilestoneExecution) : List (DependencyItem String) :=
  dependencyItems SliceNode.depends m.slices

def taskItems (m : MilestoneExecution) (sliceSlug : String) : List (DependencyItem String) :=
  match m.slices.get sliceSlug with
  | none => []
  | some slice => dependencyItems PlanTaskNode.depends slice.planTasks

/-- The execution task a plan task points at, if it is still live. -/
def reusableTask (m : MilestoneExecution) (planTask : PlanTaskNode) : Option TaskId :=
  match planTask.executionTaskId with
  | some (.number (.ofNat id)) =>
    if id = 0 then none
    else (m.tasks.get id).bind fun row ↦ if isLiveExecution row.status then some id else none
  | _ => none

/-- The row `executePlanTask` inserts. -/
def executionRow (m : MilestoneExecution) (sliceSlug taskSlug : String) : TaskRow :=
  { keys := { projectId := some m.run.state.projectId }
    promptFile := some (getPlanDir m.run.state.projectPath ++ "/" ++ m.run.state.milestoneSlug ++
      "/" ++ sliceSlug ++ "/" ++ taskSlug ++ ".md")
    workingDir := some m.run.state.projectPath
    maxRetries := some 1 }

/-- The promise of a plan task: it rejects at once after an abort. -/
def awaitTask (m : MilestoneExecution) (sliceSlug taskSlug : String) (taskId : TaskId) :
    MilestoneExecution :=
  if m.run.running then
    { m with
      started := m.started.modify sliceSlug fun run ↦
        { run with awaited := run.awaited.set taskSlug taskId } }
  else m

/-- The execution task of a plan task that is to be executed: the one it points at, or a new row
that is linked to it. -/
def executionTask (m : MilestoneExecution) (sliceSlug taskSlug : String)
    (planTask : PlanTaskNode) : MilestoneExecution × TaskId :=
  match m.reusableTask planTask with
  | some taskId => (m, taskId)
  | none =>
    ({ m with tasks := m.tasks.insert (m.executionRow sliceSlug taskSlug) }.updatePlanTask
      sliceSlug taskSlug { executionTaskId := some (.number m.tasks.nextId) }, m.tasks.nextId)

/-- The statuses of the dependencies are recorded where the plan task is read; nothing is awaited
between there and the start of the execution task. -/
def executePlanTask (m : MilestoneExecution) (sliceSlug taskSlug : String) : MilestoneExecution :=
  match m.planTask sliceSlug taskSlug with
  | none => m
  | some planTask =>
    if planTask.status = .completed ∨ planTask.status = .failed then m
    else
      let recorded : MilestoneExecution :=
        { m with
          trace := .planTask sliceSlug taskSlug
            (planTask.depends.map (m.planTaskStatus sliceSlug)) :: m.trace }
      let active := recorded.updatePlanTask sliceSlug taskSlug { status := some .active }
      let (linked, taskId) := active.executionTask sliceSlug taskSlug planTask
      linked.awaitTask sliceSlug taskSlug taskId

/-- The end of `executeSlice`. -/
def finishSlice (m : MilestoneExecution) (sliceSlug : String) : MilestoneExecution :=
  { m with started := m.started.delete sliceSlug }.updateSlice sliceSlug
    (executeSliceStatus (m.planTaskStatuses sliceSlug))

/-- The loop of `executeSlice` from one `await` to the next; it stays where it is while a promise
of its wave is pending. -/
def advanceSlice (m : MilestoneExecution) (sliceSlug : String) : MilestoneExecution :=
  match m.started.get sliceSlug with
  | none => m
  | some run =>
    if run.awaited.entries ≠ [] then m
    else
      match run.waves with
      | [] => m.finishSlice sliceSlug
      | wave :: rest =>
        if m.run.running then
          wave.ids.foldl (fun m taskSlug ↦ m.executePlanTask sliceSlug taskSlug)
            { m with started := m.started.set sliceSlug { waves := rest } }
        else m.finishSlice sliceSlug

/-- `executeSlice` up to its first `await`. -/
def executeSlice (m : MilestoneExecution) (sliceSlug : String) : MilestoneExecution :=
  match m.slices.get sliceSlug with
  | none => m
  | some slice =>
    if slice.status = .completed ∨ slice.status = .failed then m
    else
      let recorded : MilestoneExecution :=
        { m with trace := .slice sliceSlug (slice.depends.map m.sliceStatus) :: m.trace }
      let active := recorded.updateSlice sliceSlug .active
      { active with
        started := active.started.set sliceSlug
          { waves := computeWaves (active.taskItems sliceSlug) } }.advanceSlice sliceSlug

/-- `slices.length > 0 && slices.every(s => s.status === SliceStatus.COMPLETED)`. -/
def allSlicesCompleted (m : MilestoneExecution) : Bool :=
  !m.slices.entries.isEmpty && m.slices.entries.all (·.2.status == .completed)

/-- The end of `executeMilestone`. -/
def finishMilestone (m : MilestoneExecution) : MilestoneExecution :=
  { m with
    milestoneStatus := if m.allSlicesCompleted then .completed else .active
    returned := true }

/-- The loop of `executeMilestone` from one `await` to the next. -/
def advanceMilestone (m : MilestoneExecution) : MilestoneExecution :=
  if m.returned ∨ m.started.entries ≠ [] then m
  else
    match m.waves with
    | [] => m.finishMilestone
    | wave :: rest =>
      if m.run.running then wave.ids.foldl executeSlice { m with waves := rest }
      else m.finishMilestone

/-- `executeMilestone` up to its first `await`. -/
def executeMilestone (state : AutoExecutorState) (slices : JsMap String SliceNode)
    (tasks : TaskTable) : MilestoneExecution :=
  advanceMilestone
    { run := ⟨state, true⟩
      milestoneStatus := .active
      slices := slices
      tasks := tasks
      waves := computeWaves (dependencyItems SliceNode.depends slices) }

/-- A promise of a plan task settles. -/
def unawait (m : MilestoneExecution) (sliceSlug taskSlug : String) : MilestoneExecution :=
  { m with
    started := m.started.modify sliceSlug fun run ↦
      { run with awaited := run.awaited.delete taskSlug } }

def settleFromStatus (m : MilestoneExecution) (sliceSlug taskSlug : String) :
    TaskStatus → MilestoneExecution
  | .done =>
    (m.unawait sliceSlug taskSlug).updatePlanTask sliceSlug taskSlug { status := some .completed }
  | .failed | .cancelled | .timedOut =>
    (m.unawait sliceSlug taskSlug).updatePlanTask sliceSlug taskSlug { status := some .failed }
  | .queued | .running | .waitingForInput | .pendingApproval | .rateLimited => m

/-- The listener of one promise on a terminal event of its execution task. -/
def onTerminal (m : MilestoneExecution) (sliceSlug taskSlug : String) (status : TaskStatus) :
    MilestoneExecution :=
  if m.run.running then m.settleFromStatus sliceSlug taskSlug status
  else m.unawait sliceSlug taskSlug

/-- The slice and the slug of each promise that waits for a task. -/
def listeners (m : MilestoneExecution) (taskId : TaskId) : List (String × String) :=
  m.started.entries.flatMap fun (sliceSlug, run) ↦
    (run.awaited.entries.filter (·.2 == taskId)).map fun entry ↦ (sliceSlug, entry.1)

/-- `taskTerminalEvents.emit`. -/
def emit (m : MilestoneExecution) (taskId : TaskId) (status : TaskStatus) : MilestoneExecution :=
  (m.listeners taskId).foldl (fun m listener ↦ m.onTerminal listener.1 listener.2 status) m

/-- One tick of the stale check of a promise. -/
def staleCheck (m : MilestoneExecution) (sliceSlug taskSlug : String) : MilestoneExecution :=
  match (m.started.get sliceSlug).bind (·.awaited.get taskSlug) with
  | none => m
  | some taskId =>
    match m.tasks.get taskId with
    | none => m.unawait sliceSlug taskSlug
    | some row =>
      if m.run.running then m.settleFromStatus sliceSlug taskSlug row.status
      else m.unawait sliceSlug taskSlug

/-- `stopAutoExecution`: every pending promise rejects. -/
def stop (m : MilestoneExecution) : MilestoneExecution :=
  { m with
    run := { m.run with running := false }
    started := m.started.mapWithKey fun _ run ↦ { run with awaited := JsMap.empty } }

/-- `aggregateSliceStatus` of the slice of a plan task that was written. -/
def aggregateSlice (m : MilestoneExecution) (sliceSlug : String) : MilestoneExecution :=
  match m.sliceStatus sliceSlug with
  | none => m
  | some current =>
    let written := m.updateSlice sliceSlug
      (aggregateSliceStatus (m.planTaskStatuses sliceSlug) current)
    if written.allSlicesCompleted then { written with milestoneStatus := .completed } else written

/-- `syncPlanFromExecutionTask`, with the location its lookup returns. -/
def syncPlanFromExecutionTask (m : MilestoneExecution) (taskId : TaskId)
    (location : Option (String × String)) : MilestoneExecution :=
  match m.tasks.get taskId, location with
  | some row, some (sliceSlug, taskSlug) =>
    match planStatusOf row.status, m.planTask sliceSlug taskSlug with
    | some planStatus, some _ =>
      let written := (m.updatePlanTask sliceSlug taskSlug { status := some planStatus }).aggregateSlice
        sliceSlug
      if planStatus = .completed ∨ planStatus = .failed then written.emit taskId row.status
      else written
    | _, _ => m
  | _, _ => m

/-- `repointPlanTask`, with the location its lookup returns. -/
def repointPlanTask (m : MilestoneExecution) (location : Option (String × String))
    (newTaskId : TaskId) : MilestoneExecution :=
  match location with
  | none => m
  | some (sliceSlug, taskSlug) =>
    match m.planTask sliceSlug taskSlug with
    | none => m
    | some _ =>
      (m.updatePlanTask sliceSlug taskSlug
        { status := some .active, executionTaskId := some (.number newTaskId) }).aggregateSlice
          sliceSlug

end MilestoneExecution

/-- What may happen while a milestone executes. The lookups of the synchronization may answer with
any plan task, since their cache may be stale. -/
inductive MilestoneEvent
  | advanceSlice (sliceSlug : String)
  | advanceMilestone
  | staleCheck (sliceSlug taskSlug : String)
  | stop
  | syncPlanFromExecutionTask (taskId : TaskId) (location : Option (String × String))
  | repointPlanTask (location : Option (String × String)) (newTaskId : TaskId)
  | insertTask (row : TaskRow)
  | updateTask (taskId : TaskId) (status : TaskStatus)
  | updatePlanTask (sliceSlug taskSlug : String) (change : PlanTaskChange)
  | updateSlice (sliceSlug : String) (status : SliceStatus)

namespace MilestoneExecution

def step (m : MilestoneExecution) : MilestoneEvent → MilestoneExecution
  | .advanceSlice sliceSlug => m.advanceSlice sliceSlug
  | .advanceMilestone => m.advanceMilestone
  | .staleCheck sliceSlug taskSlug => m.staleCheck sliceSlug taskSlug
  | .stop => m.stop
  | .syncPlanFromExecutionTask taskId location => m.syncPlanFromExecutionTask taskId location
  | .repointPlanTask location newTaskId => m.repointPlanTask location newTaskId
  | .insertTask row => { m with tasks := m.tasks.insert row }
  | .updateTask taskId status =>
    { m with tasks := m.tasks.update taskId fun row ↦ { row with status := status } }
  | .updatePlanTask sliceSlug taskSlug change => m.updatePlanTask sliceSlug taskSlug change
  | .updateSlice sliceSlug status => m.updateSlice sliceSlug status

end MilestoneExecution

end Flockctl.AutoExecutor
