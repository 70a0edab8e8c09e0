import Flockctl.Plan.Walk

/-!
# The plan store

The functions that write plan-task files and delete parts of a plan tree, with the index they
maintain in the database: it maps an execution id to the place of the plan task that named it when
it was last written. Creating, updating and deleting a plan task maintains the index; deleting a
slice or a milestone does not.
-/

namespace Flockctl.Plan

open Collections Ai

/-- A row of `plan_task_execution_index`, without its primary key. -/
structure IndexEntry where
  projectId : ProjectId
  milestoneSlug : String
  sliceSlug : String
  taskSlug : String
  deriving DecidableEq, Repr

/-- The projects table, the plan trees and the index table. -/
structure PlanStore where
  projects : List ProjectRow
  plans : FileSystem
  index : JsMap ℤ IndexEntry := JsMap.empty

/-- The name of the file of a plan task. -/
def taskFileName (taskSlug : String) : String := taskSlug ++ ".md"

/-- A plan directory with the files of one slice changed. -/
def withSlice (plan : PlanDir) (milestoneSlug sliceSlug : String)
    (change : SliceDir → SliceDir) : PlanDir :=
  let dir := milestoneDir plan milestoneSlug
  plan.set milestoneSlug
    { dir with slices := dir.slices.set sliceSlug (change (sliceDir plan milestoneSlug sliceSlug)) }

/-- The file of a plan task. -/
def fileAt (plans : FileSystem) (location : PlanTaskLocation) : Option MdFile :=
  (sliceDir (plans location.projectPath) location.milestoneSlug location.sliceSlug).get
    (taskFileName location.taskSlug)

/-- The trees with the slice of a location changed. -/
def changeSlice (plans : FileSystem) (location : PlanTaskLocation)
    (change : SliceDir → SliceDir) : FileSystem :=
  Function.update plans location.projectPath
    (withSlice (plans location.projectPath) location.milestoneSlug location.sliceSlug change)

/-- `writeMd` to the file of a plan task. -/
def writeTaskFile (plans : FileSystem) (location : PlanTaskLocation) (file : MdFile) :
    FileSystem :=
  changeSlice plans location (·.set (taskFileName location.taskSlug) file)

/-- `rmSync` of the file of a plan task. -/
def removeTaskFile (plans : FileSystem) (location : PlanTaskLocation) : FileSystem :=
  changeSlice plans location (·.delete (taskFileName location.taskSlug))

/-- The first of `slug`, `slug-2`, `slug-3`, … whose file does not exist. Among one more name than
the directory has files one is free. -/
def dedupeSlug (dir : SliceDir) (slug : String) : String :=
  let numbered := (List.range dir.size).map fun i ↦ slug ++ "-" ++ toString (i + 2)
  ((slug :: numbered).find? fun candidate ↦ !dir.has (taskFileName candidate)).getD slug

namespace PlanStore

def setPlanTaskExecutionIndex (store : PlanStore) (executionTaskId : ℤ) (entry : IndexEntry) :
    PlanStore :=
  { store with index := store.index.set executionTaskId entry }

def deletePlanTaskExecutionIndex (store : PlanStore) (executionTaskId : ℤ) : PlanStore :=
  { store with index := store.index.delete executionTaskId }

def deletePlanTaskExecutionIndexByLocation (store : PlanStore) (entry : IndexEntry) : PlanStore :=
  { store with index := store.index.filter fun _ other ↦ decide (other ≠ entry) }

/-- `lookupProjectIdByPath`. -/
def lookupProjectIdByPath (store : PlanStore) (projectPath : String) : Option ProjectId :=
  (store.projects.find? fun project ↦ project.path == some projectPath).map (·.id)

/-- `syncExecutionIndexForTask`; a fraction is refused by the integer key, and the error is
caught. -/
def syncExecutionIndexForTask (store : PlanStore) (location : PlanTaskLocation)
    (executionTaskId : Option YamlValue) : PlanStore :=
  match store.lookupProjectIdByPath location.projectPath with
  | none => store
  | some projectId =>
    let entry : IndexEntry :=
      ⟨projectId, location.milestoneSlug, location.sliceSlug, location.taskSlug⟩
    match executionTaskId with
    | some (.number id) => store.setPlanTaskExecutionIndex id entry
    | some (.fraction _) => store
    | _ => store.deletePlanTaskExecutionIndexByLocation entry

/-- `createPlanTask`: `base` is the slug `toSlug` makes of order and title, `fields` the
frontmatter of the new task, and `listed` says whether its block ends within the first 8192
characters. -/
def createPlanTask (store : PlanStore) (projectPath milestoneSlug sliceSlug base : String)
    (fields : Frontmatter) (listed : Bool) : Except String PlanStore := do
  assertSafePlanSlug milestoneSlug "milestone slug"
  assertSafePlanSlug sliceSlug "slice slug"
  let dir := sliceDir (store.plans projectPath) milestoneSlug sliceSlug
  if dir.sliceMd.isNone then .error ("Slice not found: " ++ sliceSlug)
  else
    let location : PlanTaskLocation := ⟨projectPath, milestoneSlug, sliceSlug, dedupeSlug dir base⟩
    let written := { store with plans := writeTaskFile store.plans location (.parsed fields listed) }
    .ok (written.syncExecutionIndexForTask location (fields "execution_task_id"))

/-- The checks all three slugs of a location pass. -/
def assertSafeLocation (location : PlanTaskLocation) : Except String Unit := do
  assertSafePlanSlug location.milestoneSlug "milestone slug"
  assertSafePlanSlug location.sliceSlug "slice slug"
  assertSafePlanSlug location.taskSlug "task slug"

/-- `getPlanTask`, as far as `updatePlanTask` needs it. -/
def readPlanTask (store : PlanStore) (location : PlanTaskLocation) : Except String Frontmatter :=
  match fileAt store.plans location with
  | none => .error ("Plan task not found: " ++ location.taskSlug)
  | some file => file.read

/-- The purge in `updatePlanTask`: the row of an execution id that has changed. -/
def purgeExecutionIndex (store : PlanStore) (existing merged : Option YamlValue) : PlanStore :=
  match existing with
  | some (.number id) =>
    if existing = merged then store else store.deletePlanTaskExecutionIndex id
  | _ => store

/-- `updatePlanTask` with the fields of `changes`. -/
def updatePlanTask (store : PlanStore) (location : PlanTaskLocation) (changes : Frontmatter)
    (listed : Bool) : Except String PlanStore := do
  assertSafeLocation location
  let existing ← store.readPlanTask location
  let merged := existing.merge changes
  let written := { store with plans := writeTaskFile store.plans location (.parsed merged listed) }
  let purged := written.purgeExecutionIndex (existing "execution_task_id")
    (merged "execution_task_id")
  return purged.syncExecutionIndexForTask location (merged "execution_task_id")

/-- `deletePlanTask`; the index row goes if the file can be read and holds a number. -/
def deletePlanTask (store : PlanStore) (location : PlanTaskLocation) : Except String PlanStore := do
  assertSafeLocation location
  match fileAt store.plans location with
  | none => .error ("Plan task not found: " ++ location.taskSlug)
  | some file =>
    let removed := { store with plans := removeTaskFile store.plans location }
    match file.read with
    | .error _ => return removed
    | .ok fm =>
      match fm "execution_task_id" with
      | some (.number id) => return removed.deletePlanTaskExecutionIndex id
      | _ => return removed

/-- `updateSlice`: `slice.md` stands where a plan task with the slug `slice` would. -/
def updateSlice (store : PlanStore) (projectPath milestoneSlug sliceSlug : String)
    (changes : Frontmatter) : Except String PlanStore := do
  assertSafePlanSlug milestoneSlug "milestone slug"
  assertSafePlanSlug sliceSlug "slice slug"
  let location : PlanTaskLocation := ⟨projectPath, milestoneSlug, sliceSlug, "slice"⟩
  match fileAt store.plans location with
  | none => .error ("Slice not found: " ++ sliceSlug)
  | some file => do
    let existing ← file.read
    return { store with
      plans := writeTaskFile store.plans location (.parsed (existing.merge changes) true) }

/-- `updateMilestone`. -/
def updateMilestone (store : PlanStore) (projectPath milestoneSlug : String)
    (changes : Frontmatter) : Except String PlanStore := do
  assertSafePlanSlug milestoneSlug "milestone slug"
  let plan := store.plans projectPath
  let dir := milestoneDir plan milestoneSlug
  match dir.milestoneMd with
  | none => .error ("Milestone not found: " ++ milestoneSlug)
  | some file => do
    let existing ← file.read
    let _ ← milestoneFromFile milestoneSlug existing
    return { store with
      plans := Function.update store.plans projectPath (plan.set milestoneSlug
        { dir with milestoneMd := some (.parsed (existing.merge changes) true) }) }

/-- `deleteSlice`, which removes whatever stands under the name: the file of the milestone too. -/
def deleteSlice (store : PlanStore) (projectPath milestoneSlug sliceSlug : String) :
    Except String PlanStore := do
  assertSafePlanSlug milestoneSlug "milestone slug"
  assertSafePlanSlug sliceSlug "slice slug"
  let plan := store.plans projectPath
  let dir := milestoneDir plan milestoneSlug
  if dir.slices.has sliceSlug then
    .ok { store with
      plans := Function.update store.plans projectPath
        (plan.set milestoneSlug { dir with slices := dir.slices.delete sliceSlug }) }
  else if sliceSlug = "milestone.md" ∧ dir.milestoneMd.isSome then
    .ok { store with
      plans := Function.update store.plans projectPath
        (plan.set milestoneSlug { dir with milestoneMd := none }) }
  else .error ("Slice not found: " ++ sliceSlug)

def deleteMilestone (store : PlanStore) (projectPath milestoneSlug : String) :
    Except String PlanStore := do
  assertSafePlanSlug milestoneSlug "milestone slug"
  let plan := store.plans projectPath
  if plan.has milestoneSlug then
    .ok { store with plans := Function.update store.plans projectPath (plan.delete milestoneSlug) }
  else .error ("Milestone not found: " ++ milestoneSlug)

end PlanStore

end Flockctl.Plan
