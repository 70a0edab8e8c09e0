import Flockctl.Plan.Walk
import Flockctl.Tasks.Table

/-!
# The boot sweep over orphaned execution tasks

At boot the daemon cancels the live tasks whose prompt file lies in a plan directory and whose id
no plan task names any more. It collects the ids that are named by the walk over all plan trees,
and the walk leaves out whatever lies behind a file or a name that makes a listing throw; the test
of the candidates looks at the prefix of their prompt file only. The sweep spares every named task
exactly when the named candidates are named in a file that the walk can reach.
-/

namespace Flockctl.AutoExecutor

open Plan Tasks

/-- One segment of a path that is being normalized; the stack holds the segments before it, last
first. -/
def pushSegment (absolute : Bool) (stack : List (List Char)) (segment : List Char) :
    List (List Char) :=
  if segment = [] ∨ segment = ['.'] then stack
  else if segment = ['.', '.'] then
    match stack with
    | [] => if absolute then [] else [segment]
    | top :: rest => if top = ['.', '.'] then segment :: stack else rest
  else segment :: stack

/-- `join(projectPath, ".flockctl", "plan")`. -/
def getPlanDir (projectPath : String) : String :=
  let joined := projectPath.toList ++ "/.flockctl/plan".toList
  let absolute := joined.head? == some '/'
  let segments := ((joined.splitOn '/').foldl (pushSegment absolute) []).reverse
  String.ofList ((if absolute then ['/'] else []) ++ List.intercalate ['/'] segments)

/-- `planDirs.some(d => promptFile.startsWith(d.planDir + "/"))`. -/
def insidePlan (planDirs : List String) (promptFile : String) : Bool :=
  planDirs.any fun planDir ↦ (planDir ++ "/").toList.isPrefixOf promptFile.toList

/-- `liveExecIds`: the truthy execution ids of the plan tasks the walk visits. -/
def liveExecIds (projects : List ProjectRow) (plans : FileSystem) : List YamlValue :=
  ((walkPlanTasks projects plans).filterMap (·.task.executionTaskId)).filter (·.isTruthy)

/-- The rows the query selects, with their prompt files. -/
def sweepCandidates (table : TaskTable) : List (TaskId × String) :=
  table.rows.entries.filterMap fun (id, row) ↦
    if isLiveExecution row.status then row.promptFile.map fun promptFile ↦ (id, promptFile)
    else none

/-- The candidates the loop does not skip. -/
def orphanedTasks (projects : List ProjectRow) (plans : FileSystem) (table : TaskTable) :
    List TaskId :=
  let live := liveExecIds projects plans
  let planDirs := (projects.filterMap (·.root)).map getPlanDir
  ((sweepCandidates table).filter fun (id, promptFile) ↦
    promptFile != "" && insidePlan planDirs promptFile && !live.contains (.number id)).map Prod.fst

def markCancelled (row : TaskRow) : TaskRow := { row with status := .cancelled }

def cancelOrphanedExecutionTasks (projects : List ProjectRow) (plans : FileSystem)
    (table : TaskTable) : TaskTable :=
  if projects.filterMap (·.root) = [] then table
  else (orphanedTasks projects plans table).foldl (fun table id ↦ table.update id markCancelled)
    table

/-- A plan-task file of a registered project names the task. -/
def Named (projects : List ProjectRow) (plans : FileSystem) (id : TaskId) : Prop :=
  ∃ project ∈ projects, ∃ path, project.root = some path ∧ ∃ milestoneSlug sliceSlug task,
    HoldsTask (plans path) milestoneSlug sliceSlug task ∧ task.pointsAt id = true

/-- A plan-task file the walk can reach names the task, by an id other than 0. -/
def Reached (projects : List ProjectRow) (plans : FileSystem) (id : TaskId) : Prop :=
  id ≠ 0 ∧ ∃ project ∈ projects, ∃ path, project.root = some path ∧
    ∃ milestoneSlug sliceSlug task, Accessible (plans path) milestoneSlug sliceSlug ∧
      HoldsTask (plans path) milestoneSlug sliceSlug task ∧ task.pointsAt id = true

/-- The task is live and its prompt file lies in the plan directory of a registered project. -/
def Candidate (projects : List ProjectRow) (table : TaskTable) (id : TaskId) : Prop :=
  ∃ row promptFile, table.get id = some row ∧ isLiveExecution row.status = true ∧
    row.promptFile = some promptFile ∧ promptFile ≠ "" ∧
    insidePlan ((projects.filterMap (·.root)).map getPlanDir) promptFile = true

/-- The status of the task has become `cancelled`. -/
def Cancelled (before after : TaskTable) (id : TaskId) : Prop :=
  ∃ row swept, before.get id = some row ∧ row.status ≠ .cancelled ∧
    after.get id = some swept ∧ swept.status = .cancelled

theorem mem_liveExecIds_iff (projects : List ProjectRow) (plans : FileSystem) (id : TaskId) :
    (liveExecIds projects plans).contains (.number id) = true ↔ Reached projects plans id := by
  have htruthy : YamlValue.isTruthy (.number id) = true ↔ id ≠ 0 := by
    simp [YamlValue.isTruthy]
  rw [List.contains_iff_mem, liveExecIds, List.mem_filter, htruthy, List.mem_filterMap, and_comm]
  apply and_congr_right
  intro _
  constructor
  · rintro ⟨visit, hvisit, htask⟩
    obtain ⟨project, hproject, path, hroot, hwalked⟩ :=
      (mem_walkPlanTasks_iff projects plans visit).mp hvisit
    obtain ⟨_, _, _, haccess, hholds⟩ := (mem_walkPlan_iff _ _ _ visit).mp hwalked
    exact ⟨project, hproject, path, hroot, _, _, visit.task, haccess, hholds,
      beq_iff_eq.mpr htask⟩
  · rintro ⟨project, hproject, path, hroot, milestoneSlug, sliceSlug, task, haccess, hholds,
      hpoints⟩
    refine ⟨⟨project.id, ⟨path, milestoneSlug, sliceSlug, task.slug⟩, task⟩, ?_,
      beq_iff_eq.mp hpoints⟩
    apply (mem_walkPlanTasks_iff projects plans _).mpr
    exact ⟨project, hproject, path, hroot, (mem_walkPlan_iff _ _ _ _).mpr
      ⟨rfl, rfl, rfl, haccess, hholds⟩⟩

theorem mem_sweepCandidates_iff (table : TaskTable) (id : TaskId) (promptFile : String) :
    (id, promptFile) ∈ sweepCandidates table ↔
      ∃ row, table.get id = some row ∧ isLiveExecution row.status = true ∧
        row.promptFile = some promptFile := by
  simp only [sweepCandidates, List.mem_filterMap, Prod.exists, TaskTable.get,
    ← Collections.JsMap.mem_entries_iff]
  constructor
  · rintro ⟨other, row, hrow, hfound⟩
    split at hfound
    · rename_i hlive
      obtain ⟨found, hprompt, hpair⟩ := Option.map_eq_some_iff.mp hfound
      cases hpair
      exact ⟨row, hrow, hlive, hprompt⟩
    · cases hfound
  · rintro ⟨row, hrow, hlive, hprompt⟩
    exact ⟨id, row, hrow, by rw [if_pos hlive, hprompt]; rfl⟩

theorem mem_orphanedTasks_iff (projects : List ProjectRow) (plans : FileSystem)
    (table : TaskTable) (id : TaskId) :
    id ∈ orphanedTasks projects plans table ↔
      Candidate projects table id ∧ ¬Reached projects plans id := by
  rw [← mem_liveExecIds_iff, orphanedTasks, List.mem_map]
  constructor
  · rintro ⟨⟨other, promptFile⟩, hkept, rfl⟩
    obtain ⟨hcandidate, htests⟩ := List.mem_filter.mp hkept
    obtain ⟨row, hrow, hlive, hprompt⟩ := (mem_sweepCandidates_iff table other promptFile).mp
      hcandidate
    simp only [Bool.and_eq_true, bne_iff_ne, Bool.not_eq_true'] at htests
    exact ⟨⟨row, promptFile, hrow, hlive, hprompt, htests.1.1, htests.1.2⟩, by
      rw [htests.2]; exact Bool.false_ne_true⟩
  · rintro ⟨⟨row, promptFile, hrow, hlive, hprompt, hnonempty, hinside⟩, hnotLive⟩
    refine ⟨(id, promptFile), List.mem_filter.mpr ⟨?_, ?_⟩, rfl⟩
    · exact (mem_sweepCandidates_iff table id promptFile).mpr ⟨row, hrow, hlive, hprompt⟩
    · simp only [Bool.and_eq_true, bne_iff_ne, Bool.not_eq_true']
      exact ⟨⟨hnonempty, hinside⟩, Bool.eq_false_iff.mpr hnotLive⟩

theorem get_foldl_markCancelled (ids : List TaskId) (table : TaskTable) (id : TaskId) :
    (ids.foldl (fun table id ↦ table.update id markCancelled) table).get id =
      if id ∈ ids then (table.get id).map markCancelled else table.get id := by
  induction ids generalizing table with
  | nil => simp
  | cons first rest ih =>
    rw [List.foldl_cons, ih, TaskTable.get_update]
    by_cases hfirst : id = first
    · subst hfirst
      cases table.get id <;> simp [markCancelled]
    · simp [hfirst]

theorem get_cancelOrphanedExecutionTasks (projects : List ProjectRow) (plans : FileSystem)
    (table : TaskTable) (id : TaskId) :
    (cancelOrphanedExecutionTasks projects plans table).get id =
      if id ∈ orphanedTasks projects plans table then (table.get id).map markCancelled
      else table.get id := by
  unfold cancelOrphanedExecutionTasks
  split
  · rename_i hnone
    have hnotMem : id ∉ orphanedTasks projects plans table := by
      rw [mem_orphanedTasks_iff]
      rintro ⟨⟨_, _, _, _, _, _, hinside⟩, _⟩
      simp [hnone, insidePlan] at hinside
    rw [if_neg hnotMem]
  · exact get_foldl_markCancelled _ _ _

/-- The sweep cancels the candidates that the walk does not find named, and nothing else. -/
theorem cancelled_iff (projects : List ProjectRow) (plans : FileSystem) (table : TaskTable)
    (id : TaskId) :
    Cancelled table (cancelOrphanedExecutionTasks projects plans table) id ↔
      Candidate projects table id ∧ ¬Reached projects plans id := by
  unfold Cancelled
  rw [get_cancelOrphanedExecutionTasks, ← mem_orphanedTasks_iff]
  constructor
  · rintro ⟨row, swept, hrow, hstatus, hswept, hcancelled⟩
    by_contra hnotMem
    rw [if_neg hnotMem, hrow] at hswept
    cases hswept
    exact hstatus hcancelled
  · intro hmem
    obtain ⟨⟨row, _, hrow, hlive, _⟩, _⟩ := (mem_orphanedTasks_iff _ _ _ _).mp hmem
    refine ⟨row, markCancelled row, hrow, ?_, ?_, rfl⟩
    · intro hstatus
      rw [hstatus] at hlive
      cases hlive
    · rw [if_pos hmem, hrow]
      rfl

/-- The sweep spares every named task exactly when each candidate that is named is named in a file
the walk can reach. -/
theorem sweep_spares_iff_reached (projects : List ProjectRow) (plans : FileSystem)
    (table : TaskTable) :
    (∀ id, Cancelled table (cancelOrphanedExecutionTasks projects plans table) id →
      ¬Named projects plans id) ↔
    ∀ id, Candidate projects table id → Named projects plans id → Reached projects plans id := by
  simp only [cancelled_iff]
  constructor
  · intro hspares id hcandidate hnamed
    by_contra hreached
    exact hspares id ⟨hcandidate, hreached⟩ hnamed
  · rintro hreached id ⟨hcandidate, hnotReached⟩ hnamed
    exact hnotReached (hreached id hcandidate hnamed)

/-- A file with a YAML block. -/
def plainFile (fields : Frontmatter) : MdFile := .parsed fields true

/-- The plan task `01-do`, which names task 1, in the slice `01-api` of the milestone `01-core`. -/
def coreMilestone : MilestoneDir where
  milestoneMd := some (plainFile .empty)
  slices := Collections.JsMap.empty.set "01-api"
    ((Collections.JsMap.empty.set "slice.md" (plainFile .empty)).set "01-do.md"
      (plainFile fun key ↦ if key = "execution_task_id" then some (.number 1) else none))

/-- The milestone `02-next`, whose mission id is not a hexadecimal string. -/
def malformedMilestone : MilestoneDir where
  milestoneMd := some (plainFile fun key ↦
    if key = "mission_id" then some (.string "mission-1") else none)

def appPlans : FileSystem := fun _ ↦
  (Collections.JsMap.empty.set "01-core" coreMilestone).set "02-next" malformedMilestone

/-- A running task of the plan task `01-do`. -/
def runningTask : TaskRow :=
  { status := .running, promptFile := some "/app/.flockctl/plan/01-core/01-api/01-do.md" }

/-- The malformed mission id of `02-next` makes the walk skip the project, and the running task of
the intact milestone `01-core` is cancelled. -/
theorem sweep_cancels_namedTask :
    ¬∀ id, Cancelled (TaskTable.empty.insert runningTask)
        (cancelOrphanedExecutionTasks [⟨1, some "/app"⟩] appPlans
          (TaskTable.empty.insert runningTask)) id →
      ¬Named [⟨1, some "/app"⟩] appPlans id := by
  intro hspares
  have hcancelled : Cancelled (TaskTable.empty.insert runningTask)
      (cancelOrphanedExecutionTasks [⟨1, some "/app"⟩] appPlans
        (TaskTable.empty.insert runningTask)) 1 :=
    ⟨runningTask, markCancelled runningTask, rfl, by decide, by decide +kernel, rfl⟩
  have hnamed : Named [⟨1, some "/app"⟩] appPlans 1 :=
    ⟨_, List.mem_singleton.mpr rfl, "/app", rfl, "01-core", "01-api", _,
      ⟨rfl, rfl, "01-do.md", _, by decide, rfl, rfl⟩, by decide⟩
  exact hspares 1 hcancelled hnamed

end Flockctl.AutoExecutor
