import Flockctl.AutoExecutor.SliceStatus
import Flockctl.Plan.Files
import Flockctl.Tasks.Table

/-!
# From an execution task to its plan task

`findPlanTaskByExecutionId` asks a cache in memory, then the index in the database, then the walk
over all plan trees. An index row is checked against the file it points at; a cache entry is not,
and of the functions that change plan files only `repointPlanTask` clears the cache.
-/

namespace Flockctl.AutoExecutor

open Collections Plan Tasks Ai

/-- An entry of `planTaskByExecutionCache`. -/
structure CacheEntry where
  value : Option PlanTaskLocation
  insertedAt : ℕ
  deriving DecidableEq, Repr

def MAX_PLAN_TASK_CACHE_ENTRIES : ℕ := 4096

def PLAN_TASK_NEGATIVE_TTL_MS : ℕ := 60 * 1000

/-- The plan store with the cache of the process and its clock, in milliseconds. -/
structure Resolver where
  store : PlanStore
  planTaskByExecutionCache : JsMap TaskId CacheEntry := JsMap.empty
  now : ℕ := 0

/-- What a walk over the plan files finds for an execution task: the first plan task it visits that
points at it. -/
def freshWalk (store : PlanStore) (taskId : TaskId) : Option PlanTaskLocation :=
  ((walkPlanTasks store.projects store.plans).find? (·.task.pointsAt taskId)).map (·.location)

namespace Resolver

/-- The answer of `readCachedPlanTask`; the outer `none` is `undefined`. -/
def cached (r : Resolver) (taskId : TaskId) : Option (Option PlanTaskLocation) :=
  match r.planTaskByExecutionCache.get taskId with
  | none => none
  | some entry =>
    match entry.value with
    | some location => some (some location)
    | none => if r.now - entry.insertedAt > PLAN_TASK_NEGATIVE_TTL_MS then none else some none

/-- `readCachedPlanTask`, which drops the entry it finds expired. -/
def readCachedPlanTask (r : Resolver) (taskId : TaskId) :
    Resolver × Option (Option PlanTaskLocation) :=
  match r.cached taskId with
  | some value => (r, some value)
  | none =>
    ({ r with planTaskByExecutionCache := r.planTaskByExecutionCache.delete taskId }, none)

/-- The cache with its oldest entry dropped once it is full. -/
def evict (cache : JsMap TaskId CacheEntry) : JsMap TaskId CacheEntry :=
  if cache.size ≥ MAX_PLAN_TASK_CACHE_ENTRIES then
    match cache.keys.head? with
    | some oldest => cache.delete oldest
    | none => cache
  else cache

def writeCachedPlanTask (r : Resolver) (taskId : TaskId) (value : Option PlanTaskLocation) :
    Resolver :=
  { r with
    planTaskByExecutionCache := (evict r.planTaskByExecutionCache).set taskId ⟨value, r.now⟩ }

def clearPlanTaskByExecutionCache (r : Resolver) : Resolver :=
  { r with planTaskByExecutionCache := JsMap.empty }

/-- `deletePlanTaskExecutionIndex` on the store of the resolver. -/
def purgeIndex (r : Resolver) (taskId : TaskId) : Resolver :=
  { r with store := r.store.deletePlanTaskExecutionIndex taskId }

/-- The second tier: the location an index row holds, if the file there still points at the task;
otherwise the row is purged. -/
def resolveByIndex (r : Resolver) (taskId : TaskId) : Resolver × Option PlanTaskLocation :=
  match r.store.index.get taskId with
  | none => (r, none)
  | some entry =>
    match (r.store.projects.find? (·.id == entry.projectId)).bind (·.root) with
    | none => (r.purgeIndex taskId, none)
    | some path =>
      match listPlanTasks (r.store.plans path) entry.milestoneSlug entry.sliceSlug with
      | .error _ => (r.purgeIndex taskId, none)
      | .ok planTasks =>
        if planTasks.any fun pt ↦ pt.slug == entry.taskSlug && pt.pointsAt taskId then
          (r, some ⟨path, entry.milestoneSlug, entry.sliceSlug, entry.taskSlug⟩)
        else (r.purgeIndex taskId, none)

/-- The third tier: the walk, whose result goes into the cache and the index. -/
def resolveByWalk (r : Resolver) (taskId : TaskId) : Resolver × Option PlanTaskLocation :=
  match (walkPlanTasks r.store.projects r.store.plans).find? (·.task.pointsAt taskId) with
  | some visit =>
    let written := r.writeCachedPlanTask taskId (some visit.location)
    let entry : IndexEntry := ⟨visit.projectId, visit.location.milestoneSlug,
      visit.location.sliceSlug, visit.location.taskSlug⟩
    ({ written with store := written.store.setPlanTaskExecutionIndex taskId entry },
      some visit.location)
  | none => (r.writeCachedPlanTask taskId none, none)

def findPlanTaskByExecutionId (r : Resolver) (taskId : TaskId) :
    Resolver × Option PlanTaskLocation :=
  match r.readCachedPlanTask taskId with
  | (read, some value) => (read, value)
  | (read, none) =>
    match read.resolveByIndex taskId with
    | (checked, some location) => (checked.writeCachedPlanTask taskId (some location), some location)
    | (checked, none) => checked.resolveByWalk taskId

end Resolver

/-- `{ status: … }` as the argument of an update. -/
def statusChange (text : String) : Frontmatter := fun key ↦
  if key = "status" then some (.string text) else none

/-- The slice half of `aggregateSliceStatus`. -/
def aggregateSlice (store : PlanStore) (location : PlanTaskLocation) (planTasks : List PlanTaskData)
    (slices : List SliceData) : Except String PlanStore :=
  match slices.find? (·.slug == location.sliceSlug) with
  | none => .ok store
  | some current =>
    let newStatus := aggregateSliceStatus (planTasks.map (·.status)) current.status
    if current.status = newStatus then .ok store
    else store.updateSlice location.projectPath location.milestoneSlug location.sliceSlug
      (statusChange newStatus.text)

/-- The milestone half of `aggregateSliceStatus`. -/
def aggregateMilestone (store : PlanStore) (location : PlanTaskLocation) :
    Except String PlanStore := do
  let slices ← listSlices (store.plans location.projectPath) location.milestoneSlug
  let milestones ← listMilestones (store.plans location.projectPath)
  match milestones.find? (·.slug == location.milestoneSlug) with
  | none => .ok store
  | some milestone =>
    if !slices.isEmpty && slices.all (·.status == .completed) &&
        milestone.status != some (.string "completed") then
      store.updateMilestone location.projectPath location.milestoneSlug (statusChange "completed")
    else .ok store

/-- `aggregateSliceStatus` after a write to a plan task: the store it leaves, and whether it
returned. -/
def aggregate (store : PlanStore) (location : PlanTaskLocation) : PlanStore × Bool :=
  match listPlanTasks (store.plans location.projectPath) location.milestoneSlug
      location.sliceSlug, listSlices (store.plans location.projectPath) location.milestoneSlug with
  | .ok [], _ => (store, true)
  | .ok planTasks, .ok slices =>
    match aggregateSlice store location planTasks slices with
    | .error _ => (store, false)
    | .ok updated =>
      match aggregateMilestone updated location with
      | .error _ => (updated, false)
      | .ok final => (final, true)
  | _, _ => (store, false)

/-- The plan status `syncPlanFromExecutionTask` writes for a task status. -/
def planStatusOf : TaskStatus → Option PlanTaskStatus
  | .done => some .completed
  | .failed | .cancelled | .timedOut => some .failed
  | .running | .pendingApproval => some .active
  | .queued | .waitingForInput | .rateLimited => none

namespace Resolver

/-- The two writes after a lookup that has found a location: the plan task, then its slice and
milestone. -/
def writeFound (r : Resolver) (location : PlanTaskLocation) (changes : Frontmatter)
    (listed : Bool) : Resolver × Bool :=
  match r.store.updatePlanTask location changes listed with
  | .error _ => (r, false)
  | .ok updated =>
    let (aggregated, returned) := aggregate updated location
    ({ r with store := aggregated }, returned)

/-- `repointPlanTask`; the cache is cleared unless a write throws. -/
def repointPlanTask (r : Resolver) (previousTaskId newTaskId : TaskId) (listed : Bool) :
    Resolver :=
  match r.findPlanTaskByExecutionId previousTaskId with
  | (found, none) => found
  | (found, some location) =>
    match found.writeFound location
        ((statusChange "active").merge fun key ↦
          if key = "execution_task_id" then some (.number newTaskId) else none) listed with
    | (written, true) => written.clearPlanTaskByExecutionCache
    | (written, false) => written

/-- `syncPlanFromExecutionTask` for a task whose row, if there is one, has the status `status`. -/
def syncPlanFromExecutionTask (r : Resolver) (taskId : TaskId) (status : Option TaskStatus)
    (listed : Bool) : Resolver :=
  match status with
  | none => r
  | some status =>
    match r.findPlanTaskByExecutionId taskId with
    | (found, none) => found
    | (found, some location) =>
      match planStatusOf status with
      | none => found
      | some planStatus => (found.writeFound location (statusChange planStatus.text) listed).1

end Resolver

/-- The operations on the plan store, the lookups and the passage of time. -/
inductive ResolverEvent
  | createPlanTask (projectPath milestoneSlug sliceSlug base : String) (fields : Frontmatter)
      (listed : Bool)
  | updatePlanTask (location : PlanTaskLocation) (changes : Frontmatter) (listed : Bool)
  | deletePlanTask (location : PlanTaskLocation)
  | deleteSlice (projectPath milestoneSlug sliceSlug : String)
  | deleteMilestone (projectPath milestoneSlug : String)
  | repointPlanTask (previousTaskId newTaskId : TaskId) (listed : Bool)
  | syncPlanFromExecutionTask (taskId : TaskId) (status : Option TaskStatus) (listed : Bool)
  | find (taskId : TaskId)
  | pass (milliseconds : ℕ)

namespace Resolver

/-- A mutation of the store; one that throws changes nothing. -/
def mutate (r : Resolver) (result : Except String PlanStore) : Resolver :=
  match result with
  | .ok store => { r with store := store }
  | .error _ => r

def step (r : Resolver) : ResolverEvent → Resolver
  | .createPlanTask projectPath milestoneSlug sliceSlug base fields listed =>
    r.mutate (r.store.createPlanTask projectPath milestoneSlug sliceSlug base fields listed)
  | .updatePlanTask location changes listed =>
    r.mutate (r.store.updatePlanTask location changes listed)
  | .deletePlanTask location => r.mutate (r.store.deletePlanTask location)
  | .deleteSlice projectPath milestoneSlug sliceSlug =>
    r.mutate (r.store.deleteSlice projectPath milestoneSlug sliceSlug)
  | .deleteMilestone projectPath milestoneSlug =>
    r.mutate (r.store.deleteMilestone projectPath milestoneSlug)
  | .repointPlanTask previousTaskId newTaskId listed =>
    r.repointPlanTask previousTaskId newTaskId listed
  | .syncPlanFromExecutionTask taskId status listed =>
    r.syncPlanFromExecutionTask taskId status listed
  | .find taskId => (r.findPlanTaskByExecutionId taskId).1
  | .pass milliseconds => { r with now := r.now + milliseconds }

end Resolver

end Flockctl.AutoExecutor
