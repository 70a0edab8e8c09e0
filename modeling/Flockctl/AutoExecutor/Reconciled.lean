import Flockctl.AutoExecutor.Reconcile

/-!
# What reconciliation leaves

Each plan task, each slice and each milestone has a region of the plan trees, which the passes of
the reconciliation work through one by one.
-/

namespace Flockctl.AutoExecutor

open Collections Plan Tasks Ai Transition

/-! ## Plan tasks -/

section

variable (execById : JsMap TaskId TaskStatus) (listed : PlanTaskLocation → Bool)
  (path milestoneSlug sliceSlug : String)

/-- What becomes of a file in the directory of a slice when the plan tasks of the slice are
reconciled. -/
def settledFile (name : String) : Option MdFile → Option MdFile
  | some (.parsed fields true) =>
    if isTaskFileName name then
      match dueStatus (execTask execById) (taskFromFile (taskSlugOf name) fields) with
      | some status =>
        restated fields status.text (listed ⟨path, milestoneSlug, sliceSlug, taskSlugOf name⟩)
      | none => some (.parsed fields true)
    else some (.parsed fields true)
  | other => other

theorem reconcileTask_eq (progress : Progress) (pt : PlanTaskData) :
    reconcileTask execById listed path milestoneSlug sliceSlug progress pt =
      match dueStatus (execTask execById) pt with
      | none => .ok progress
      | some status => (progress.store.updatePlanTask ⟨path, milestoneSlug, sliceSlug, pt.slug⟩
          (statusChange status.text) (listed ⟨path, milestoneSlug, sliceSlug, pt.slug⟩)).map
            fun store ↦ ⟨store, progress.reconciled + 1⟩ := by
  unfold reconcileTask dueStatus
  cases (awaitedId pt).bind (execTask execById) with
  | none => rfl
  | some status =>
    cases hstatus : terminalPlanStatus status with
    | none => simp [hstatus]
    | some planStatus =>
      simp only [hstatus, Option.bind_some]
      cases progress.store.updatePlanTask ⟨path, milestoneSlug, sliceSlug, pt.slug⟩
        (statusChange planStatus.text) (listed ⟨path, milestoneSlug, sliceSlug, pt.slug⟩) <;> rfl

/-- The plan task has been read from its file, and its name is safe. -/
structure TaskReady (pt : PlanTaskData) (view : PlanView) : Prop where
  safe : isSafePlanSlug pt.slug = true
  named : isTaskFileName (taskFileName pt.slug) = true
  file : ∃ fields,
    view (.ofTask ⟨path, milestoneSlug, sliceSlug, pt.slug⟩) = some (.parsed fields true) ∧
      pt = taskFromFile pt.slug fields

def TaskDone (pt : PlanTaskData) (before after : PlanView) : Prop :=
  after (.ofTask ⟨path, milestoneSlug, sliceSlug, pt.slug⟩) =
    settledFile execById listed path milestoneSlug sliceSlug (taskFileName pt.slug)
      (before (.ofTask ⟨path, milestoneSlug, sliceSlug, pt.slug⟩))

theorem reconcileTask_acts (hmilestone : isSafePlanSlug milestoneSlug = true)
    (hslice : isSafePlanSlug sliceSlug = true) :
    ActsInRegions (fun progress : Progress ↦ progress.store.projects)
      (fun progress ↦ progress.store.file)
      (reconcileTask execById listed path milestoneSlug sliceSlug)
      (fun pt ↦ {PlanFile.ofTask ⟨path, milestoneSlug, sliceSlug, pt.slug⟩})
      (TaskReady path milestoneSlug sliceSlug)
      (TaskDone execById listed path milestoneSlug sliceSlug) where
  returns progress pt hready := by
    obtain ⟨fields, hfile, hpt⟩ := hready.file
    have hsettled : settledFile execById listed path milestoneSlug sliceSlug (taskFileName pt.slug)
        (progress.store.file (.ofTask ⟨path, milestoneSlug, sliceSlug, pt.slug⟩)) =
        match dueStatus (execTask execById) pt with
        | some status => restated fields status.text
            (listed ⟨path, milestoneSlug, sliceSlug, pt.slug⟩)
        | none => some (.parsed fields true) := by
      rw [hfile, settledFile, if_pos hready.named, taskSlugOf_taskFileName, ← hpt]
    rw [reconcileTask_eq]
    cases hdue : dueStatus (execTask execById) pt with
    | none =>
      refine ⟨progress, rfl, rfl, fun _ _ ↦ rfl, ?_⟩
      rw [TaskDone, hsettled, hdue, hfile]
    | some status =>
      obtain ⟨store, hupdate, hprojects, hfiles⟩ :=
        PlanStore.updatePlanTask_file hmilestone hslice hready.safe hfile
          (statusChange status.text) (listed ⟨path, milestoneSlug, sliceSlug, pt.slug⟩)
      refine ⟨⟨store, progress.reconciled + 1⟩, ?_, hprojects, ?_, ?_⟩
      · simp only [hupdate]
        rfl
      · intro cell hcell
        simp only [hfiles]
        exact Function.update_of_ne hcell _ _
      · rw [TaskDone, hsettled, hdue, hfiles, Function.update_self]
        rfl
  ready_local pt first second hsame hready := by
    obtain ⟨fields, hfile, hpt⟩ := hready.file
    exact ⟨hready.safe, hready.named, fields, by rw [← hsame rfl, hfile], hpt⟩
  done_local pt first second final other hsame hfinal hdone := by
    rw [TaskDone, ← hfinal rfl, ← hsame rfl, hdone]

end

/-! ## Slices -/

theorem isTaskFileName_slice : isTaskFileName "slice.md" = false := by decide

section

variable {files other : String → Option MdFile}

/-- The file of the slice itself is none of its plan tasks. -/
theorem hasTask_congr (h : ∀ name, name ≠ "slice.md" → files name = other name) (name : String)
    (fields : Frontmatter) : HasTask files name fields ↔ HasTask other name fields := by
  have hne (hnamed : isTaskFileName name = true) : name ≠ "slice.md" := by
    intro hname
    rw [hname, isTaskFileName_slice] at hnamed
    cases hnamed
  constructor
  · intro ⟨hnamed, hlisted⟩
    exact ⟨hnamed, by rw [← h name (hne hnamed), hlisted]⟩
  · intro ⟨hnamed, hlisted⟩
    exact ⟨hnamed, by rw [h name (hne hnamed), hlisted]⟩

theorem tasksCompleted_congr (h : ∀ name, name ≠ "slice.md" → files name = other name) :
    TasksCompleted files ↔ TasksCompleted other := by
  have htask := hasTask_congr h
  constructor
  · intro ⟨hnonempty, hcompleted⟩
    simp only [htask] at hnonempty hcompleted
    exact ⟨hnonempty, hcompleted⟩
  · intro ⟨hnonempty, hcompleted⟩
    simp only [← htask] at hnonempty hcompleted
    exact ⟨hnonempty, hcompleted⟩

theorem taskFailed_congr (h : ∀ name, name ≠ "slice.md" → files name = other name) :
    TaskFailed files ↔ TaskFailed other := by
  simp only [TaskFailed, hasTask_congr h]

section

variable {tasks : List PlanTaskData} (hmem : ∀ pt, pt ∈ tasks ↔ ∃ name fields,
  HasTask files name fields ∧ pt = taskFromFile (taskSlugOf name) fields)

include hmem

theorem allCompleted_iff_tasksCompleted :
    allCompleted (tasks.map (·.status)) = true ↔ TasksCompleted files := by
  rw [allCompleted, Bool.and_eq_true_iff, List.all_eq_true, Bool.not_eq_true',
    List.isEmpty_eq_false_iff_exists_mem]
  simp only [List.mem_map, hmem]
  constructor
  · rintro ⟨⟨_, _, ⟨name, fields, htask, _⟩, _⟩, hall⟩
    refine ⟨⟨name, fields, htask⟩, ?_⟩
    intro other fields htask
    exact beq_iff_eq.mp (hall _ ⟨_, ⟨other, fields, htask, rfl⟩, rfl⟩)
  · rintro ⟨⟨name, fields, htask⟩, hcompleted⟩
    refine ⟨⟨_, _, ⟨name, fields, htask, rfl⟩, rfl⟩, ?_⟩
    rintro _ ⟨_, ⟨other, fields, htask, rfl⟩, rfl⟩
    exact beq_iff_eq.mpr (hcompleted other fields htask)

theorem anyFailed_iff_taskFailed :
    anyFailed (tasks.map (·.status)) = true ↔ TaskFailed files := by
  rw [anyFailed, List.any_eq_true]
  simp only [List.mem_map, hmem, TaskFailed]
  constructor
  · rintro ⟨_, ⟨_, ⟨name, fields, htask, rfl⟩, rfl⟩, hfailed⟩
    exact ⟨name, fields, htask, beq_iff_eq.mp hfailed⟩
  · rintro ⟨name, fields, htask, hfailed⟩
    exact ⟨_, ⟨_, ⟨name, fields, htask, rfl⟩, rfl⟩, beq_iff_eq.mpr hfailed⟩

end

open Classical in
/-- The file of a slice after it has been checked against the files beside it. -/
noncomputable def recheckedSlice (files : String → Option MdFile) (fields : Frontmatter)
    (shown : Bool) : Option MdFile :=
  if TasksCompleted files ∧ SliceStatus.ofField (fields "status") ≠ .completed then
    restated fields SliceStatus.completed.text true
  else if TaskFailed files ∧ SliceStatus.ofField (fields "status") ≠ .failed then
    restated fields SliceStatus.failed.text true
  else some (.parsed fields shown)

theorem recheckedSlice_congr (h : ∀ name, name ≠ "slice.md" → files name = other name) :
    recheckedSlice files = recheckedSlice other := by
  funext fields shown
  unfold recheckedSlice
  rw [propext (tasksCompleted_congr h), propext (taskFailed_congr h)]

end

section

variable (execById : JsMap TaskId TaskStatus) (listed : PlanTaskLocation → Bool)
  (path milestoneSlug : String)

theorem recheckSlice_spec (hmilestone : isSafePlanSlug milestoneSlug = true) {s : SliceData}
    (hslug : isSafePlanSlug s.slug = true) {progress : Progress} {fields : Frontmatter}
    {shown : Bool} (hfile : progress.store.file (.inSlice path milestoneSlug s.slug "slice.md") =
      some (.parsed fields shown)) (hstatus : s.status = .ofField (fields "status")) :
    ∃ after, recheckSlice path milestoneSlug progress s = .ok after ∧
      after.store.projects = progress.store.projects ∧
      after.store.file = Function.update progress.store.file
        (.inSlice path milestoneSlug s.slug "slice.md")
        (recheckedSlice (PlanView.slice progress.store.file path milestoneSlug s.slug) fields
          shown) := by
  obtain ⟨tasks, htasks, _, hmem⟩ :=
    listPlanTasks_spec progress.store path hmilestone hslug
  have hall : (allCompleted (tasks.map (·.status)) && s.status != .completed) = true ↔
      TasksCompleted (PlanView.slice progress.store.file path milestoneSlug s.slug) ∧
        SliceStatus.ofField (fields "status") ≠ .completed := by
    rw [Bool.and_eq_true_iff, allCompleted_iff_tasksCompleted hmem, bne_iff_ne, hstatus]
  have hany : (anyFailed (tasks.map (·.status)) && s.status != .failed) = true ↔
      TaskFailed (PlanView.slice progress.store.file path milestoneSlug s.slug) ∧
        SliceStatus.ofField (fields "status") ≠ .failed := by
    rw [Bool.and_eq_true_iff, anyFailed_iff_taskFailed hmem, bne_iff_ne, hstatus]
  have hwrite (text : String) : ∃ after : Progress,
      (do let store ← progress.store.updateSlice path milestoneSlug s.slug (statusChange text)
          return { progress with store := store } : Except String Progress) = .ok after ∧
      after.store.projects = progress.store.projects ∧
      after.store.file = Function.update progress.store.file
        (.inSlice path milestoneSlug s.slug "slice.md") (restated fields text true) := by
    obtain ⟨store, hupdate, hprojects, hfiles⟩ :=
      PlanStore.updateSlice_file hmilestone hslug hfile (statusChange text)
    exact ⟨{ progress with store := store }, by rw [hupdate]; rfl, hprojects, hfiles⟩
  unfold recheckSlice recheckedSlice
  rw [htasks]
  simp only [bind, Except.bind]
  split
  · rename_i hcompleted
    rw [if_pos (hall.mp hcompleted)]
    exact hwrite _
  · rename_i hopen
    rw [if_neg fun h ↦ hopen (hall.mpr h)]
    split
    · rename_i hfailed
      rw [if_pos (hany.mp hfailed)]
      exact hwrite _
    · rename_i hkept
      rw [if_neg fun h ↦ hkept (hany.mpr h), ← hfile, Function.update_eq_self]
      exact ⟨progress, rfl, rfl, rfl⟩

/-- The slice has been read from files that parse. -/
structure SliceReady (s : SliceData) (view : PlanView) : Prop where
  parses : SliceParses (view.slice path milestoneSlug s.slug) s.slug
  status : ∀ fields shown,
    view.slice path milestoneSlug s.slug "slice.md" = some (.parsed fields shown) →
      s.status = .ofField (fields "status")

/-- Its plan tasks are settled, and then it has been checked. -/
structure SliceDone (s : SliceData) (before after : PlanView) : Prop where
  tasks : ∀ name, name ≠ "slice.md" → after.slice path milestoneSlug s.slug name =
    settledFile execById listed path milestoneSlug s.slug name
      (before.slice path milestoneSlug s.slug name)
  own : ∀ fields shown,
    before.slice path milestoneSlug s.slug "slice.md" = some (.parsed fields shown) →
      after.slice path milestoneSlug s.slug "slice.md" =
        recheckedSlice (after.slice path milestoneSlug s.slug) fields shown

/-- The files in the directory of a slice. -/
def sliceRegion (sliceSlug : String) : Set PlanFile :=
  {file | ∃ name, file = .inSlice path milestoneSlug sliceSlug name}

variable {path milestoneSlug} in
theorem slice_eq_of_eqOn {sliceSlug : String} {first second : PlanView}
    (h : Set.EqOn first second (sliceRegion path milestoneSlug sliceSlug)) :
    first.slice path milestoneSlug sliceSlug = second.slice path milestoneSlug sliceSlug := by
  funext name
  exact h ⟨name, rfl⟩

variable {execById listed path milestoneSlug} in
/-- What is no plan task is left alone. -/
theorem settledFile_of_not_hasTask {sliceSlug name : String} {file : Option MdFile}
    (h : ∀ fields, isTaskFileName name = true → file ≠ some (.parsed fields true)) :
    settledFile execById listed path milestoneSlug sliceSlug name file = file := by
  unfold settledFile
  split
  · rename_i fields
    rw [if_neg fun hnamed ↦ h fields hnamed rfl]
  · rfl

variable {path milestoneSlug} in
/-- The plan tasks of a slice have files of their own. -/
theorem pairwise_disjoint_tasks {sliceSlug : String} {tasks : List PlanTaskData}
    (hnodup : (tasks.map (·.slug)).Nodup) :
    tasks.Pairwise fun pt other ↦
      Disjoint {PlanFile.ofTask ⟨path, milestoneSlug, sliceSlug, pt.slug⟩}
        ({PlanFile.ofTask ⟨path, milestoneSlug, sliceSlug, other.slug⟩} : Set PlanFile) := by
  rw [List.Nodup, List.pairwise_map] at hnodup
  apply hnodup.imp
  intro pt other hslug
  rw [Set.disjoint_singleton]
  intro hsame
  apply hslug
  apply taskFileName_injective
  simpa [PlanFile.ofTask] using hsame

theorem reconcileSlice_acts (hmilestone : isSafePlanSlug milestoneSlug = true) :
    ActsInRegions (fun progress : Progress ↦ progress.store.projects)
      (fun progress ↦ progress.store.file)
      (reconcileSlice execById listed path milestoneSlug)
      (fun s ↦ sliceRegion path milestoneSlug s.slug)
      (SliceReady path milestoneSlug) (SliceDone execById listed path milestoneSlug) where
  returns progress s hready := by
    have hslug := hready.parses.safe
    obtain ⟨tasks, htasks, hnodup, hmem⟩ :=
      listPlanTasks_spec progress.store path hmilestone hslug
    have hreadyTasks : ∀ pt ∈ tasks,
        TaskReady path milestoneSlug s.slug pt progress.store.file := by
      intro pt hpt
      obtain ⟨name, fields, htask, rfl⟩ := (hmem pt).mp hpt
      have hname : taskFileName (taskSlugOf name) = name := taskFileName_taskSlugOf htask.named
      refine ⟨hready.parses.tasks name fields htask, ?_, fields, ?_, rfl⟩
      · exact hname.symm ▸ htask.named
      · rw [PlanFile.ofTask]
        exact (congrArg _ (congrArg _ hname)).trans htask.listed
    obtain ⟨checked, hfold, hprojects, hframe, hdone⟩ :=
      (reconcileTask_acts execById listed path milestoneSlug s.slug hmilestone
        hslug).foldlM_of_pairwise (pairwise_disjoint_tasks hnodup) hreadyTasks
    -- the directory after the loop: every file is settled
    have hsettled (name : String) : checked.store.file (.inSlice path milestoneSlug s.slug name) =
        settledFile execById listed path milestoneSlug s.slug name
          (progress.store.file (.inSlice path milestoneSlug s.slug name)) := by
      by_cases htask : ∃ fields,
          HasTask (PlanView.slice progress.store.file path milestoneSlug s.slug) name fields
      · obtain ⟨fields, htask⟩ := htask
        have hname : taskFileName (taskSlugOf name) = name := taskFileName_taskSlugOf htask.named
        have hpt := hdone _ ((hmem _).mpr ⟨name, fields, htask, rfl⟩)
        simp only [TaskDone, PlanFile.ofTask, taskFromFile, hname] at hpt
        exact hpt
      · have hkept : checked.store.file (.inSlice path milestoneSlug s.slug name) =
            progress.store.file (.inSlice path milestoneSlug s.slug name) := by
          apply hframe
          intro pt hpt hcell
          obtain ⟨other, fields, hother, rfl⟩ := (hmem pt).mp hpt
          apply htask
          have hname : name = other := by
            simpa [PlanFile.ofTask, taskFromFile, taskFileName_taskSlugOf hother.named] using hcell
          exact ⟨fields, hname ▸ hother⟩
        rw [hkept]
        symm
        apply settledFile_of_not_hasTask
        intro fields hnamed hfile
        exact htask ⟨fields, hnamed, hfile⟩
    have hown : checked.store.file (.inSlice path milestoneSlug s.slug "slice.md") =
        progress.store.file (.inSlice path milestoneSlug s.slug "slice.md") := by
      rw [hsettled]
      apply settledFile_of_not_hasTask
      intro fields hnamed
      rw [isTaskFileName_slice] at hnamed
      cases hnamed
    obtain ⟨fields, shown, hfile⟩ := hready.parses.own
    obtain ⟨after, hcheck, hprojectsAfter, hfiles⟩ :=
      recheckSlice_spec path milestoneSlug hmilestone hslug (hown.trans hfile)
        (hready.status fields shown hfile)
    have hother (name : String) (hname : name ≠ "slice.md") :
        PlanView.slice after.store.file path milestoneSlug s.slug name =
          PlanView.slice checked.store.file path milestoneSlug s.slug name := by
      rw [hfiles]
      exact Function.update_of_ne (by simpa using hname) _ _
    refine ⟨after, ?_, hprojectsAfter.trans hprojects, ?_, ?_, ?_⟩
    · unfold reconcileSlice
      rw [htasks]
      simp only [hfold, bind, Except.bind]
      exact hcheck
    · intro cell hcell
      have hne (name : String) : cell ≠ .inSlice path milestoneSlug s.slug name :=
        fun h ↦ hcell ⟨name, h⟩
      simp only [hfiles]
      rw [Function.update_of_ne (hne _)]
      exact hframe cell fun pt _ ↦ hne _
    · intro name hname
      rw [hother name hname]
      exact hsettled name
    · intro fields' shown' hfile'
      have hsame : some (MdFile.parsed fields shown) = some (.parsed fields' shown') := by
        rw [← hfile', ← hfile]
      cases hsame
      rw [recheckedSlice_congr hother, PlanView.slice]
      simp only [hfiles, Function.update_self]
  ready_local s first second hsame hready := by
    have hslice := slice_eq_of_eqOn hsame
    constructor
    · rw [← hslice]
      exact hready.parses
    · rw [← hslice]
      exact hready.status
  done_local s first second final other hsame hfinal hdone := by
    have hslice := slice_eq_of_eqOn hsame
    have hsliceFinal := slice_eq_of_eqOn hfinal
    constructor
    · rw [← hslice, ← hsliceFinal]
      exact hdone.tasks
    · rw [← hslice, ← hsliceFinal]
      exact hdone.own

/-! ## Milestones -/

theorem all_completed_iff_slicesCompleted {slices : List SliceData}
    (files : String → String → Option MdFile)
    (hmem : ∀ s, s ∈ slices ↔ ∃ slug file, files slug "slice.md" = some file ∧
      (file.read).bind (sliceFromFile slug) = .ok s)
    (hparses : ∀ slug file, files slug "slice.md" = some file →
      ∃ fields shown, file = .parsed fields shown) :
    (!slices.isEmpty && slices.all (·.status == .completed)) = true ↔ SlicesCompleted files := by
  rw [Bool.and_eq_true_iff, List.all_eq_true, Bool.not_eq_true',
    List.isEmpty_eq_false_iff_exists_mem]
  constructor
  · intro ⟨⟨s, hs⟩, hall⟩
    obtain ⟨slug, file, hfile, _⟩ := (hmem s).mp hs
    obtain ⟨fields, shown, rfl⟩ := hparses slug file hfile
    refine ⟨⟨slug, fields, shown, hfile⟩, ?_⟩
    intro other fields shown hother
    exact beq_iff_eq.mp (hall _ ((hmem _).mpr ⟨other, _, hother, rfl⟩))
  · intro ⟨⟨slug, fields, shown, hfile⟩, hcompleted⟩
    refine ⟨⟨_, (hmem _).mpr ⟨slug, _, hfile, rfl⟩⟩, ?_⟩
    intro s hs
    obtain ⟨other, file, hother, hread⟩ := (hmem s).mp hs
    obtain ⟨fields, shown, rfl⟩ := hparses other file hother
    cases hread
    exact beq_iff_eq.mpr (hcompleted other fields shown hother)

open Classical in
/-- The file of a milestone after it has been checked against its slices. -/
noncomputable def recheckedMilestone (slices : String → String → Option MdFile)
    (fields : Frontmatter) (shown : Bool) : Option MdFile :=
  if SlicesCompleted slices ∧ fields "status" ≠ some (.string "completed") then
    restated fields "completed" true
  else some (.parsed fields shown)

/-- The milestone has been read from files that parse. -/
structure MilestoneReady (m : MilestoneData) (view : PlanView) : Prop where
  parses : MilestoneParses (view.slice path m.slug) (view (.milestoneMd path m.slug)) m.slug
  status : ∀ fields shown, view (.milestoneMd path m.slug) = some (.parsed fields shown) →
    m.status = fields "status"

/-- Its slices are settled and checked, and then it has been checked. -/
structure MilestoneDone (m : MilestoneData) (before after : PlanView) : Prop where
  slices : ∀ s : SliceData, ∀ fields shown,
    before.slice path m.slug s.slug "slice.md" = some (.parsed fields shown) →
      SliceDone execById listed path m.slug s before after
  others : ∀ slug, before.slice path m.slug slug "slice.md" = none →
    after.slice path m.slug slug = before.slice path m.slug slug
  own : ∀ fields shown, before (.milestoneMd path m.slug) = some (.parsed fields shown) →
    after (.milestoneMd path m.slug) =
      recheckedMilestone (after.slice path m.slug) fields shown

/-- The file of a milestone and the files in the directories of its slices. -/
def milestoneRegion (slug : String) : Set PlanFile :=
  {file | file = .milestoneMd path slug ∨ ∃ sliceSlug name, file = .inSlice path slug sliceSlug name}

variable {path} in
theorem milestone_eq_of_eqOn {slug : String} {first second : PlanView}
    (h : Set.EqOn first second (milestoneRegion path slug)) :
    first.slice path slug = second.slice path slug ∧
      first (.milestoneMd path slug) = second (.milestoneMd path slug) := by
  constructor
  · funext sliceSlug name
    exact h (Or.inr ⟨sliceSlug, name, rfl⟩)
  · exact h (Or.inl rfl)

variable {path milestoneSlug} in
theorem pairwise_disjoint_slices {slices : List SliceData}
    (hnodup : (slices.map (·.slug)).Nodup) :
    slices.Pairwise fun s other ↦ Disjoint (sliceRegion path milestoneSlug s.slug)
      (sliceRegion path milestoneSlug other.slug) := by
  rw [List.Nodup, List.pairwise_map] at hnodup
  apply hnodup.imp
  intro s other hslug
  rw [Set.disjoint_left]
  rintro _ ⟨name, rfl⟩ ⟨otherName, hsame⟩
  simp only [PlanFile.inSlice.injEq] at hsame
  exact hslug hsame.2.2.1

theorem recheckMilestone_spec {m : MilestoneData} {progress : Progress} {fields : Frontmatter}
    {shown : Bool} (hready : MilestoneReady path m progress.store.file)
    (hfile : progress.store.file (.milestoneMd path m.slug) = some (.parsed fields shown)) :
    ∃ after, recheckMilestone path progress m = .ok after ∧
      after.store.projects = progress.store.projects ∧
      after.store.file = Function.update progress.store.file (.milestoneMd path m.slug)
        (recheckedMilestone (PlanView.slice progress.store.file path m.slug) fields shown) := by
  have hslug := hready.parses.safe
  have hparses (slug : String) (file : MdFile)
      (hsome : progress.store.file (.inSlice path m.slug slug "slice.md") = some file) :
      ∃ fields shown, file = .parsed fields shown := by
    obtain ⟨fields, shown, hown⟩ := (hready.parses.slices slug (Option.isSome_of_eq_some hsome)).own
    exact ⟨fields, shown, Option.some.inj (hsome.symm.trans hown)⟩
  obtain ⟨slices, hslices, _, hmem⟩ := listSlices_spec progress.store path hslug (by
    intro slug file hsome
    obtain ⟨fields, shown, rfl⟩ := hparses slug file hsome
    exact ⟨_, rfl⟩)
  have hall : (!slices.isEmpty && slices.all (·.status == .completed) &&
      m.status != some (.string "completed")) = true ↔
      SlicesCompleted (PlanView.slice progress.store.file path m.slug) ∧
        fields "status" ≠ some (.string "completed") := by
    rw [Bool.and_eq_true_iff, all_completed_iff_slicesCompleted
      (PlanView.slice progress.store.file path m.slug) hmem hparses, bne_iff_ne,
      hready.status fields shown hfile]
  obtain ⟨_, _, missionId, hown, hmission⟩ := hready.parses.own
  rw [hfile] at hown
  cases hown
  obtain ⟨store, hupdate, hprojects, hfiles⟩ :=
    PlanStore.updateMilestone_file hslug hfile hmission (statusChange "completed")
  unfold recheckMilestone recheckedMilestone
  rw [hslices]
  simp only [bind, Except.bind]
  split
  · rename_i hcompleted
    rw [if_pos (hall.mp hcompleted), hupdate]
    exact ⟨_, rfl, hprojects, hfiles⟩
  · rename_i hopen
    rw [if_neg fun h ↦ hopen (hall.mpr h), ← hfile, Function.update_eq_self]
    exact ⟨progress, rfl, rfl, rfl⟩

/-- Checking a slice does not make its directory lose its own file. -/
theorem recheckedSlice_parsed (files : String → Option MdFile) (fields : Frontmatter)
    (shown : Bool) : ∃ fields' shown', recheckedSlice files fields shown =
      some (.parsed fields' shown') := by
  unfold recheckedSlice
  split
  · exact ⟨_, _, rfl⟩
  · split
    · exact ⟨_, _, rfl⟩
    · exact ⟨_, _, rfl⟩

variable {execById listed path milestoneSlug} in
theorem SettledFile.hasTask {sliceSlug name : String} {file : Option MdFile} {fields : Frontmatter}
    (h : settledFile execById listed path milestoneSlug sliceSlug name file =
      some (.parsed fields true)) :
    ∃ fields', file = some (.parsed fields' true) := by
  unfold settledFile at h
  split at h
  · rename_i fields'
    exact ⟨fields', rfl⟩
  · exact ⟨fields, h⟩

variable {execById listed path milestoneSlug} in
/-- A slice whose files parse still parses when it has been reconciled. -/
theorem SliceDone.parses {s : SliceData} {before after : PlanView}
    (h : SliceDone execById listed path milestoneSlug s before after)
    (hparses : SliceParses (before.slice path milestoneSlug s.slug) s.slug) :
    SliceParses (after.slice path milestoneSlug s.slug) s.slug where
  safe := hparses.safe
  own := by
    obtain ⟨fields, shown, hfile⟩ := hparses.own
    rw [h.own fields shown hfile]
    exact recheckedSlice_parsed _ _ _
  tasks name fields htask := by
    have hname : name ≠ "slice.md" := by
      intro hname
      have hnamed := htask.named
      rw [hname, isTaskFileName_slice] at hnamed
      cases hnamed
    have hlisted := htask.listed
    rw [h.tasks name hname] at hlisted
    obtain ⟨fields', hbefore⟩ := SettledFile.hasTask hlisted
    exact hparses.tasks name fields' ⟨htask.named, hbefore⟩

theorem reconcileMilestone_acts :
    ActsInRegions (fun progress : Progress ↦ progress.store.projects)
      (fun progress ↦ progress.store.file)
      (reconcileMilestone execById listed path)
      (fun m ↦ milestoneRegion path m.slug)
      (MilestoneReady path) (MilestoneDone execById listed path) where
  returns progress m hready := by
    have hslug := hready.parses.safe
    have hparses (slug : String) (file : MdFile)
        (hsome : progress.store.file (.inSlice path m.slug slug "slice.md") = some file) :
        SliceParses (PlanView.slice progress.store.file path m.slug slug) slug :=
      hready.parses.slices slug (Option.isSome_of_eq_some hsome)
    have hloads (slug : String) (file : MdFile)
        (hsome : progress.store.file (.inSlice path m.slug slug "slice.md") = some file) :
        ∃ slice, (file.read).bind (sliceFromFile slug) = .ok slice := by
      obtain ⟨fields, shown, hown⟩ := (hparses slug file hsome).own
      cases hsome.symm.trans hown
      exact ⟨_, rfl⟩
    obtain ⟨slices, hslices, hnodup, hmem⟩ := listSlices_spec progress.store path hslug hloads
    have hreadySlices : ∀ s ∈ slices, SliceReady path m.slug s progress.store.file := by
      intro s hs
      obtain ⟨slug, file, hfile, hread⟩ := (hmem s).mp hs
      obtain ⟨fields, shown, hown⟩ := (hparses slug file hfile).own
      cases hfile.symm.trans hown
      cases hread
      refine ⟨hparses slug _ hfile, ?_⟩
      intro fields' shown' hfile'
      cases hfile.symm.trans hfile'
      rfl
    obtain ⟨checked, hfold, hprojects, hframe, hdone⟩ :=
      (reconcileSlice_acts execById listed path m.slug hslug).foldlM_of_pairwise
        (pairwise_disjoint_slices hnodup) hreadySlices
    have hlisted (slug : String) (fields : Frontmatter) (shown : Bool)
        (hfile : progress.store.file (.inSlice path m.slug slug "slice.md") =
          some (.parsed fields shown)) :
        SliceDone execById listed path m.slug ⟨slug, .ofField (fields "status")⟩
          progress.store.file checked.store.file :=
      hdone _ ((hmem _).mpr ⟨slug, _, hfile, rfl⟩)
    have hothers (slug : String)
        (hnone : progress.store.file (.inSlice path m.slug slug "slice.md") = none)
        (name : String) : checked.store.file (.inSlice path m.slug slug name) =
          progress.store.file (.inSlice path m.slug slug name) := by
      apply hframe
      rintro s hs ⟨other, hsame⟩
      obtain ⟨found, file, hfile, hread⟩ := (hmem s).mp hs
      simp only [PlanFile.inSlice.injEq] at hsame
      have hslugOf : s.slug = found := slugOf_of_read slug_of_sliceFromFile hread
      rw [hsame.2.2.1, hslugOf, hfile] at hnone
      cases hnone
    have hown : checked.store.file (.milestoneMd path m.slug) =
        progress.store.file (.milestoneMd path m.slug) := by
      apply hframe
      rintro s _ ⟨name, hsame⟩
      cases hsame
    -- the slices still parse when they are looked at again
    have hchecked : MilestoneReady path m checked.store.file := by
      constructor
      · rw [hown]
        refine ⟨hslug, hready.parses.own, ?_⟩
        intro slug hsome
        cases hfile : progress.store.file (.inSlice path m.slug slug "slice.md") with
        | none =>
          rw [PlanView.slice, hothers slug hfile, hfile] at hsome
          cases hsome
        | some file =>
          have hbefore := hparses slug file hfile
          obtain ⟨fields, shown, hparsed⟩ := hbefore.own
          exact (hlisted slug fields shown hparsed).parses hbefore
      · rw [hown]
        exact hready.status
    obtain ⟨fields, shown, _, hfile, _⟩ := hready.parses.own
    obtain ⟨after, hcheck, hprojectsAfter, hfiles⟩ :=
      recheckMilestone_spec path hchecked (hown.trans hfile)
    have hslice : PlanView.slice after.store.file path m.slug =
        PlanView.slice checked.store.file path m.slug := by
      funext slug name
      rw [PlanView.slice, hfiles]
      exact Function.update_of_ne (by simp) _ _
    refine ⟨after, ?_, hprojectsAfter.trans hprojects, ?_, ?_, ?_, ?_⟩
    · unfold reconcileMilestone
      rw [hslices]
      simp only [hfold, bind, Except.bind]
      exact hcheck
    · intro cell hcell
      simp only [hfiles]
      rw [Function.update_of_ne fun h ↦ hcell (Or.inl h)]
      apply hframe
      rintro s _ ⟨name, hsame⟩
      exact hcell (Or.inr ⟨s.slug, name, hsame⟩)
    · intro s fields shown hbefore
      have hdoneSlice := hlisted s.slug fields shown hbefore
      constructor
      · rw [hslice]
        exact hdoneSlice.tasks
      · rw [hslice]
        exact hdoneSlice.own
    · intro slug hnone
      rw [hslice]
      funext name
      exact hothers slug hnone name
    · intro fields' shown' hfile'
      cases hfile.symm.trans hfile'
      rw [hslice]
      simp only [hfiles, Function.update_self]
  ready_local m first second hsame hready := by
    obtain ⟨hslice, hown⟩ := milestone_eq_of_eqOn hsame
    constructor
    · rw [← hslice, ← hown]
      exact hready.parses
    · rw [← hown]
      exact hready.status
  done_local m first second final other hsame hfinal hdone := by
    obtain ⟨hslice, hown⟩ := milestone_eq_of_eqOn hsame
    obtain ⟨hsliceFinal, hownFinal⟩ := milestone_eq_of_eqOn hfinal
    refine ⟨?_, ?_, ?_⟩
    · intro s fields shown hbefore
      rw [← hslice] at hbefore
      have hdoneSlice := hdone.slices s fields shown hbefore
      constructor
      · rw [← hslice, ← hsliceFinal]
        exact hdoneSlice.tasks
      · rw [← hslice, ← hsliceFinal]
        exact hdoneSlice.own
    · rw [← hslice, ← hsliceFinal]
      exact hdone.others
    · rw [← hown, ← hownFinal, ← hsliceFinal]
      exact hdone.own

end

end Flockctl.AutoExecutor
