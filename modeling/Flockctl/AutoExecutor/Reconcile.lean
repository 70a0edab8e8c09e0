import Flockctl.AutoExecutor.PlanLookup
import Flockctl.Plan.Entries
import Flockctl.Transition.Regions

/-!
# Plan reconciliation at boot

`reconcilePlanStatuses` looks up the execution tasks that unfinished plan tasks name, all in one
statement, and walks the plan trees again: a plan task whose execution task is over gets the
matching status, and then the slices and the milestones are checked against what they hold. The
lookup and the writes may throw, and nothing here catches that.
-/

namespace Flockctl.AutoExecutor

open Collections Plan Tasks Ai

/-- `SELECT … FROM tasks WHERE id IN (…)` over a table of tasks, with the ids and the statuses of
the rows it returns. It may throw, for a value that cannot be bound or for too many of them; fewer
ids are no harder to bind, and they select fewer rows. The keys of the table start at 1. -/
structure TaskLookup (table : TaskId → Option TaskStatus) where
  select : List YamlValue → Except String (List (TaskId × TaskStatus))
  sound : ∀ ids rows, select ids = .ok rows → ∀ row ∈ rows, table row.1 = some row.2
  complete : ∀ ids rows, select ids = .ok rows → ∀ (id : TaskId) (status : TaskStatus),
    YamlValue.number id ∈ ids → table id = some status → (id, status) ∈ rows
  fewer : ∀ ids others, others ⊆ ids → ∀ rows, select ids = .ok rows →
    ∃ found, select others = .ok found ∧ found ⊆ rows
  positive : table 0 = none

/-- The execution id of a plan task that is neither completed nor failed, where it has one. -/
def awaitedId (pt : PlanTaskData) : Option YamlValue :=
  if pt.status = .completed ∨ pt.status = .failed then none
  else pt.executionTaskId.filter (·.isTruthy)

/-- The plan status of an execution task that is over. -/
def terminalPlanStatus : TaskStatus → Option PlanTaskStatus
  | .done => some .completed
  | .failed | .cancelled | .timedOut => some .failed
  | .queued | .running | .waitingForInput | .pendingApproval | .rateLimited => none

/-- `execTaskIds`. -/
def execTaskIds (store : PlanStore) : List YamlValue :=
  (walkPlanTasks store.projects store.plans).filterMap fun visit ↦ awaitedId visit.task

/-- The paths of `walks`. -/
def walkedPaths (store : PlanStore) : List String :=
  store.projects.filterMap fun project ↦
    project.root.filter fun path ↦ (listMilestones (store.plans path)).isOk

/-- `execById`. -/
def execById {table : TaskId → Option TaskStatus} (lookup : TaskLookup table)
    (ids : List YamlValue) : Except String (JsMap TaskId TaskStatus) :=
  if ids.isEmpty then .ok JsMap.empty
  else (lookup.select ids).map fun rows ↦
    rows.foldl (fun map row ↦ map.set row.1 row.2) JsMap.empty

/-- `execById.get(id)`; only a number is a key of the map. -/
def execTask (execById : JsMap TaskId TaskStatus) : YamlValue → Option TaskStatus
  | .number (.ofNat id) => execById.get id
  | _ => none

/-- The plan store and `reconciled`. -/
structure Progress where
  store : PlanStore
  reconciled : ℕ := 0

section

variable (execById : JsMap TaskId TaskStatus) (listed : PlanTaskLocation → Bool)
  (projectPath : String)

def reconcileTask (milestoneSlug sliceSlug : String) (progress : Progress) (pt : PlanTaskData) :
    Except String Progress :=
  match (awaitedId pt).bind (execTask execById) with
  | none => .ok progress
  | some status =>
    match terminalPlanStatus status with
    | none => .ok progress
    | some planStatus => do
      let location : PlanTaskLocation := ⟨projectPath, milestoneSlug, sliceSlug, pt.slug⟩
      let store ← progress.store.updatePlanTask location (statusChange planStatus.text)
        (listed location)
      return ⟨store, progress.reconciled + 1⟩

/-- The re-check of a slice against its plan tasks. -/
def recheckSlice (milestoneSlug : String) (progress : Progress) (s : SliceData) :
    Except String Progress := do
  let updatedTasks ← listPlanTasks (progress.store.plans projectPath) milestoneSlug s.slug
  if allCompleted (updatedTasks.map (·.status)) && s.status != .completed then
    let store ← progress.store.updateSlice projectPath milestoneSlug s.slug
      (statusChange SliceStatus.completed.text)
    return { progress with store := store }
  else if anyFailed (updatedTasks.map (·.status)) && s.status != .failed then
    let store ← progress.store.updateSlice projectPath milestoneSlug s.slug
      (statusChange SliceStatus.failed.text)
    return { progress with store := store }
  else return progress

def reconcileSlice (milestoneSlug : String) (progress : Progress) (s : SliceData) :
    Except String Progress :=
  match listPlanTasks (progress.store.plans projectPath) milestoneSlug s.slug with
  | .error _ => .ok progress
  | .ok planTasks => do
    let checked ←
      planTasks.foldlM (reconcileTask execById listed projectPath milestoneSlug s.slug) progress
    recheckSlice projectPath milestoneSlug checked s

/-- The re-check of a milestone against its slices. -/
def recheckMilestone (progress : Progress) (m : MilestoneData) : Except String Progress := do
  let updatedSlices ← listSlices (progress.store.plans projectPath) m.slug
  if !updatedSlices.isEmpty && updatedSlices.all (·.status == .completed) &&
      m.status != some (.string "completed") then
    let store ← progress.store.updateMilestone projectPath m.slug (statusChange "completed")
    return { progress with store := store }
  else return progress

def reconcileMilestone (progress : Progress) (m : MilestoneData) : Except String Progress :=
  match listSlices (progress.store.plans projectPath) m.slug with
  | .error _ => .ok progress
  | .ok slices => do
    let checked ← slices.foldlM (reconcileSlice execById listed projectPath m.slug) progress
    recheckMilestone projectPath checked m

end

def reconcileProject (execById : JsMap TaskId TaskStatus) (listed : PlanTaskLocation → Bool)
    (progress : Progress) (projectPath : String) : Except String Progress :=
  match listMilestones (progress.store.plans projectPath) with
  | .error _ => .ok progress
  | .ok milestones =>
    milestones.foldlM (reconcileMilestone execById listed projectPath) progress

/-- `reconcilePlanStatuses`. `listed` says of the plan tasks it writes whether their blocks then
end within the first 8192 characters. -/
def reconcilePlanStatuses {table : TaskId → Option TaskStatus} (lookup : TaskLookup table)
    (listed : PlanTaskLocation → Bool) (store : PlanStore) : Except String Progress := do
  let execById ← execById lookup (execTaskIds store)
  (walkedPaths store).foldlM (reconcileProject execById listed) { store := store }

/-- The status that a plan task is given, if it is given one. -/
def dueStatus (exec : YamlValue → Option TaskStatus) (pt : PlanTaskData) : Option PlanTaskStatus :=
  ((awaitedId pt).bind exec).bind terminalPlanStatus

/-- A file with its status overwritten. -/
def restated (fields : Frontmatter) (text : String) (shown : Bool) : Option MdFile :=
  some (.parsed (fields.merge (statusChange text)) shown)

section

variable (files : String → Option MdFile)

/-- The slice with these files has plan tasks, and all of them are completed. -/
structure TasksCompleted : Prop where
  nonempty : ∃ name fields, HasTask files name fields
  completed : ∀ name fields, HasTask files name fields →
    PlanTaskStatus.ofField (fields "status") = .completed

/-- A plan task of the slice has failed. -/
def TaskFailed : Prop :=
  ∃ name fields, HasTask files name fields ∧ PlanTaskStatus.ofField (fields "status") = .failed

/-- The files of a slice parse, and its names are safe. -/
structure SliceParses (slug : String) : Prop where
  safe : isSafePlanSlug slug = true
  own : ∃ fields shown, files "slice.md" = some (.parsed fields shown)
  tasks : ∀ name fields, HasTask files name fields → isSafePlanSlug (taskSlugOf name) = true

end

section

variable (slices : String → String → Option MdFile)

/-- The milestone with these slices has any, and all of them are completed. -/
structure SlicesCompleted : Prop where
  nonempty : ∃ slug fields shown, slices slug "slice.md" = some (.parsed fields shown)
  completed : ∀ slug fields shown, slices slug "slice.md" = some (.parsed fields shown) →
    SliceStatus.ofField (fields "status") = .completed

/-- The files of a milestone parse, and its names are safe. -/
structure MilestoneParses (own : Option MdFile) (slug : String) : Prop where
  safe : isSafePlanSlug slug = true
  own : ∃ fields shown missionId, own = some (.parsed fields shown) ∧
    parseMissionId (fields "mission_id") = .ok missionId
  slices : ∀ slug, (slices slug "slice.md").isSome = true → SliceParses (slices slug) slug

end

/-- All plan files below a path parse, and all their names are safe. -/
def ProjectParses (view : PlanView) (path : String) : Prop :=
  ∀ slug, (view (.milestoneMd path slug)).isSome = true →
    MilestoneParses (view.slice path slug) (view (.milestoneMd path slug)) slug

end Flockctl.AutoExecutor
