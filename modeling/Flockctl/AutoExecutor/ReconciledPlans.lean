import Flockctl.AutoExecutor.ReconciledTwice

/-!
# Reconciliation is complete

After `reconcilePlanStatuses` every plan task whose execution task is over has the matching status,
every slice and every milestone agrees with what it holds, nothing else has changed, and a second
run finds nothing to do.
-/

namespace Flockctl.AutoExecutor

open Collections Plan Tasks Ai Transition

/-! ## The execution tasks that are looked up -/

section

variable {table : TaskId → Option TaskStatus}

theorem get_foldl_rows {rows : List (TaskId × TaskStatus)}
    (hsound : ∀ row ∈ rows, table row.1 = some row.2) (id : TaskId) (status : TaskStatus) :
    (rows.foldl (fun map row ↦ map.set row.1 row.2) JsMap.empty).get id = some status ↔
      (id, status) ∈ rows := by
  induction rows using List.reverseRecOn with
  | nil => simp
  | append_singleton rows row ih =>
    have hrows : ∀ other ∈ rows, table other.1 = some other.2 := fun other hother ↦
      hsound other (List.mem_append_left _ hother)
    have hrow : table row.1 = some row.2 := hsound row (by simp)
    rw [List.foldl_append, List.foldl_cons, List.foldl_nil, JsMap.get_set, List.mem_append,
      List.mem_singleton]
    by_cases hid : id = row.1
    · rw [if_pos hid, Option.some.injEq]
      constructor
      · intro hstatus
        exact Or.inr (Prod.ext hid hstatus.symm)
      · rintro (hmem | hsame)
        · have hfound := hrows (id, status) hmem
          rw [hid, hrow] at hfound
          exact Option.some.inj hfound
        · exact congrArg Prod.snd hsame.symm
    · rw [if_neg hid, ih hrows]
      constructor
      · exact Or.inl
      · rintro (hmem | hsame)
        · exact hmem
        · exact absurd (congrArg Prod.fst hsame) hid

/-- A map of looked-up tasks: its entries are rows, and it holds the rows of all numbers that were
asked for. -/
structure LooksUp (table : TaskId → Option TaskStatus) (ids : List YamlValue)
    (map : JsMap TaskId TaskStatus) : Prop where
  sound : ∀ id status, map.get id = some status → table id = some status
  complete : ∀ (id : TaskId) (status : TaskStatus), YamlValue.number id ∈ ids →
    table id = some status → map.get id = some status

theorem execById_of_select {lookup : TaskLookup table} {ids : List YamlValue}
    (hreturns : ids ≠ [] → ∃ rows, lookup.select ids = .ok rows) :
    ∃ map, execById lookup ids = .ok map ∧ LooksUp table ids map ∧
      ∀ others ⊆ ids, ∃ later, execById lookup others = .ok later ∧ Fewer later map := by
  unfold execById
  by_cases hids : ids = []
  · subst hids
    refine ⟨JsMap.empty, rfl, ⟨by simp, by simp⟩, ?_⟩
    intro others hothers
    rw [List.subset_nil.mp hothers]
    exact ⟨JsMap.empty, rfl, by simp [Fewer]⟩
  · obtain ⟨rows, hrows⟩ := hreturns hids
    have hmap := get_foldl_rows (lookup.sound ids rows hrows)
    rw [if_neg (by simpa using hids), hrows]
    refine ⟨_, rfl, ⟨?_, ?_⟩, ?_⟩
    · intro id status hget
      exact lookup.sound ids rows hrows _ ((hmap id status).mp hget)
    · intro id status hid hstatus
      exact (hmap id status).mpr (lookup.complete ids rows hrows id status hid hstatus)
    · intro others hothers
      by_cases hnone : others = []
      · subst hnone
        exact ⟨JsMap.empty, rfl, by simp [Fewer]⟩
      · obtain ⟨found, hfound, hsubset⟩ := lookup.fewer ids others hothers rows hrows
        rw [if_neg (by simpa using hnone), hfound]
        refine ⟨_, rfl, ?_⟩
        intro id status hget
        apply (hmap id status).mpr
        exact hsubset ((get_foldl_rows (lookup.sound others found hfound) id status).mp hget)

end

/-! ## Complete and idempotent -/

/-- A plan task: a listed file in a slice of a milestone, both of which have their own file. -/
structure IsPlanTask (view : PlanView) (path milestoneSlug sliceSlug name : String)
    (fields : Frontmatter) : Prop where
  milestone : (view (.milestoneMd path milestoneSlug)).isSome = true
  slice : (view.slice path milestoneSlug sliceSlug "slice.md").isSome = true
  task : HasTask (view.slice path milestoneSlug sliceSlug) name fields

/-- The fields of a plan task that is neither completed nor failed and points at an existing
execution task that is over, with the status that matches. -/
structure PointsAtTerminal (table : TaskId → Option TaskStatus) (fields : Frontmatter)
    (planStatus : PlanTaskStatus) : Prop where
  waiting : PlanTaskStatus.ofField (fields "status") ≠ .completed ∧
    PlanTaskStatus.ofField (fields "status") ≠ .failed
  terminal : ∃ (id : TaskId) (status : TaskStatus),
    fields "execution_task_id" = some (.number id) ∧ table id = some status ∧
      terminalPlanStatus status = some planStatus

/-- The text that is due as the status in a file: of a plan task, the one that matches its
execution task; of a slice and a milestone, the one that what they hold, afterwards, calls for. -/
def DueText (table : TaskId → Option TaskStatus) (before after : PlanView) (text : String) :
    PlanFile → Prop
  | .milestoneMd path milestoneSlug =>
    text = "completed" ∧ SlicesCompleted (after.slice path milestoneSlug)
  | .inSlice path milestoneSlug sliceSlug name =>
    (∃ fields planStatus, IsPlanTask before path milestoneSlug sliceSlug name fields ∧
      PointsAtTerminal table fields planStatus ∧ text = planStatus.text) ∨
    (name = "slice.md" ∧ text = "completed" ∧
      TasksCompleted (after.slice path milestoneSlug sliceSlug)) ∨
    (name = "slice.md" ∧ text = "failed" ∧
      TaskFailed (after.slice path milestoneSlug sliceSlug))

/-- What a reconciliation leaves of the files below the registered paths. -/
structure Reconciled (table : TaskId → Option TaskStatus) (registered : String → Prop)
    (before after : PlanView) : Prop where
  tasks : ∀ path, registered path → ∀ milestoneSlug sliceSlug name fields planStatus,
    IsPlanTask before path milestoneSlug sliceSlug name fields →
      PointsAtTerminal table fields planStatus → ∃ shown,
        after (.inSlice path milestoneSlug sliceSlug name) = restated fields planStatus.text shown
  slices : ∀ path, registered path → ∀ milestoneSlug,
    (after (.milestoneMd path milestoneSlug)).isSome = true → ∀ sliceSlug fields shown,
      after (.inSlice path milestoneSlug sliceSlug "slice.md") = some (.parsed fields shown) →
        (TasksCompleted (after.slice path milestoneSlug sliceSlug) →
          SliceStatus.ofField (fields "status") = .completed) ∧
        (TaskFailed (after.slice path milestoneSlug sliceSlug) →
          SliceStatus.ofField (fields "status") = .failed)
  milestones : ∀ path, registered path → ∀ milestoneSlug fields shown,
    after (.milestoneMd path milestoneSlug) = some (.parsed fields shown) →
      SlicesCompleted (after.slice path milestoneSlug) →
        fields "status" = some (.string "completed")
  others : ∀ file, after file = before file ∨ ∃ fields shown text shownAfter,
    before file = some (.parsed fields shown) ∧ after file = restated fields text shownAfter ∧
      registered file.projectPath ∧ DueText table before after text file

section

variable {table : TaskId → Option TaskStatus} {listed : PlanTaskLocation → Bool}
  {map : JsMap TaskId TaskStatus} {store : PlanStore} {path milestoneSlug sliceSlug name : String}
  {fields : Frontmatter}

theorem awaitedId_eq_some_iff (pt : PlanTaskData) (id : YamlValue) :
    awaitedId pt = some id ↔ (pt.status ≠ .completed ∧ pt.status ≠ .failed) ∧
      pt.executionTaskId = some id ∧ id.isTruthy = true := by
  unfold awaitedId
  split
  · rename_i hover
    simp only [reduceCtorEq, false_iff]
    rintro ⟨⟨hcompleted, hfailed⟩, _⟩
    exact hover.elim hcompleted hfailed
  · rename_i hwaiting
    rw [not_or] at hwaiting
    rw [and_iff_right hwaiting, Option.filter_eq_some_iff]

/-- Nothing on the way to a plan task throws where all files parse. -/
theorem accessible_of_parses (hparses : ProjectParses store.file path)
    (hmilestone : (store.file (.milestoneMd path milestoneSlug)).isSome = true)
    (hslice : (PlanView.slice store.file path milestoneSlug sliceSlug "slice.md").isSome = true) :
    Accessible (store.plans path) milestoneSlug sliceSlug := by
  have hparsesMilestone := hparses milestoneSlug hmilestone
  refine ⟨?_, hparsesMilestone.safe, ?_, (hparsesMilestone.slices sliceSlug hslice).safe⟩
  · intro slug dir hdir
    have hfile : store.file (.milestoneMd path slug) = dir.milestoneMd := by
      rw [PlanStore.file, hdir, Option.bind_some]
    unfold MilestoneDir.loads
    cases hown : dir.milestoneMd with
    | none => rfl
    | some file =>
      obtain ⟨_, _, missionId, hparsed, hmission⟩ :=
        (hparses slug (by rw [hfile, hown]; rfl)).own
      rw [hfile, hown] at hparsed
      cases hparsed
      simp [MdFile.read, Except.bind, hmission, Except.isOk, Except.toBool]
  · intro slug dir hdir
    have hfile : PlanView.slice store.file path milestoneSlug slug "slice.md" =
        SliceDir.sliceMd dir := by
      rw [PlanView.slice, PlanStore.file_sliceMd, hdir, Option.bind_some]
    unfold SliceDir.loads
    cases hown : SliceDir.sliceMd dir with
    | none => rfl
    | some file =>
      obtain ⟨_, _, hparsed⟩ := (hparsesMilestone.slices slug (by rw [hfile, hown]; rfl)).own
      rw [hfile, hown] at hparsed
      cases hparsed
      rfl

theorem mem_execTaskIds_iff
    (hparses : ∀ path, store.registered path = true → ProjectParses store.file path)
    (id : YamlValue) :
    id ∈ execTaskIds store ↔ ∃ path, store.registered path = true ∧
      ∃ milestoneSlug sliceSlug name fields,
        IsPlanTask store.file path milestoneSlug sliceSlug name fields ∧
          awaitedId (taskFromFile (taskSlugOf name) fields) = some id := by
  simp only [execTaskIds, List.mem_filterMap, mem_walkPlanTasks_iff, PlanStore.registered_iff]
  constructor
  · rintro ⟨visit, ⟨project, hproject, path, hroot, hvisit⟩, hid⟩
    obtain ⟨_, _, _, _, hholds⟩ := (mem_walkPlan_iff _ _ _ visit).mp hvisit
    obtain ⟨name, fields, hnamed, hfile, htask⟩ := hholds.file
    refine ⟨path, ⟨project, hproject, hroot⟩, visit.location.milestoneSlug,
      visit.location.sliceSlug, name, fields, ⟨hholds.milestone, ?_, hnamed, hfile⟩, htask ▸ hid⟩
    rw [PlanView.slice, PlanStore.file_sliceMd]
    exact hholds.slice
  · rintro ⟨path, ⟨project, hproject, hroot⟩, milestoneSlug, sliceSlug, name, fields, htask, hid⟩
    have hregistered : store.registered path = true :=
      (store.registered_iff path).mpr ⟨project, hproject, hroot⟩
    refine ⟨⟨project.id, ⟨path, milestoneSlug, sliceSlug, taskSlugOf name⟩,
      taskFromFile (taskSlugOf name) fields⟩, ⟨project, hproject, path, hroot, ?_⟩, hid⟩
    apply (mem_walkPlan_iff _ _ _ _).mpr
    refine ⟨rfl, rfl, rfl, ?_, htask.milestone, ?_, name, fields, htask.task.named,
      htask.task.listed, rfl⟩
    · exact accessible_of_parses (hparses path hregistered) htask.milestone htask.slice
    · rw [← PlanStore.file_sliceMd]
      exact htask.slice

/-- The walks of pass 1 are those of all registered paths. -/
theorem mem_walkedPaths_iff
    (hparses : ∀ path, store.registered path = true → ProjectParses store.file path)
    (path : String) : path ∈ walkedPaths store ↔ store.registered path = true := by
  simp only [walkedPaths, List.mem_filterMap, Option.filter_eq_some_iff]
  constructor
  · rintro ⟨project, hproject, hroot, _⟩
    exact (store.registered_iff path).mpr ⟨project, hproject, hroot⟩
  · intro hregistered
    obtain ⟨project, hproject, hroot⟩ := (store.registered_iff path).mp hregistered
    obtain ⟨milestones, hmilestones, _⟩ := listMilestones_of_parses (hparses path hregistered)
    exact ⟨project, hproject, hroot, by rw [hmilestones]; rfl⟩

theorem registered_eq {after : PlanStore} (h : after.projects = store.projects) :
    after.registered = store.registered := by
  funext path
  rw [PlanStore.registered, PlanStore.registered, h]

/-- A task that points at an execution task that is over is due its status. -/
theorem PointsAtTerminal.dueStatus_eq {ids : List YamlValue} (hmap : LooksUp table ids map)
    (hpositive : table 0 = none) {planStatus : PlanTaskStatus}
    (h : PointsAtTerminal table fields planStatus)
    (hids : ∀ id, awaitedId (taskFromFile (taskSlugOf name) fields) = some id → id ∈ ids) :
    dueStatus (execTask map) (taskFromFile (taskSlugOf name) fields) = some planStatus := by
  obtain ⟨id, status, hid, hstatus, hterminal⟩ := h.terminal
  have hne : id ≠ 0 := by
    rintro rfl
    rw [hpositive] at hstatus
    cases hstatus
  have hawaited : awaitedId (taskFromFile (taskSlugOf name) fields) = some (.number id) := by
    apply (awaitedId_eq_some_iff _ _).mpr
    exact ⟨h.waiting, hid, by simpa [YamlValue.isTruthy] using hne⟩
  have hget := hmap.complete id status (hids _ hawaited) hstatus
  rw [dueStatus, hawaited, Option.bind_some]
  change (map.get id).bind terminalPlanStatus = _
  rw [hget, Option.bind_some, hterminal]

theorem pointsAtTerminal_of_dueStatus {ids : List YamlValue} (hmap : LooksUp table ids map)
    {planStatus : PlanTaskStatus}
    (h : dueStatus (execTask map) (taskFromFile (taskSlugOf name) fields) = some planStatus) :
    PointsAtTerminal table fields planStatus := by
  obtain ⟨status, hfound, hterminal⟩ := Option.bind_eq_some_iff.mp h
  obtain ⟨id, hawaited, hexec⟩ := Option.bind_eq_some_iff.mp hfound
  obtain ⟨hwaiting, hid, _⟩ := (awaitedId_eq_some_iff _ _).mp hawaited
  refine ⟨hwaiting, ?_⟩
  unfold execTask at hexec
  split at hexec
  · rename_i number _
    exact ⟨number, status, hid, hmap.sound number status hexec, hterminal⟩
  · cases hexec

/-! ## The parts of the result -/

/-- A pass over all registered paths. -/
theorem reconcileProjects_done (map : JsMap TaskId TaskStatus) (listed : PlanTaskLocation → Bool)
    (hparses : ∀ path, store.registered path = true → ProjectParses store.file path) :
    ∃ after, (walkedPaths store).foldlM (reconcileProject map listed) { store := store } =
        .ok after ∧ after.store.projects = store.projects ∧
      (∀ file : PlanFile, store.registered file.projectPath = false →
        after.store.file file = store.file file) ∧
      ∀ path, store.registered path = true →
        ProjectDone map listed path store.file after.store.file := by
  have hwalked := mem_walkedPaths_iff hparses
  have hdisjoint (path other : String) :
      path = other ∨ Disjoint (projectRegion path) (projectRegion other) := by
    by_cases hpath : path = other
    · exact Or.inl hpath
    · apply Or.inr
      rw [Set.disjoint_left]
      intro file hfile hother
      exact hpath (Eq.trans (Eq.symm hfile) hother)
  have hpass : ∃ after, (walkedPaths store).foldlM (reconcileProject map listed)
      { store := store } = .ok after ∧ after.store.projects = store.projects ∧
      (∀ file, (∀ path ∈ walkedPaths store, file ∉ projectRegion path) →
        after.store.file file = store.file file) ∧
      ∀ path ∈ walkedPaths store, ProjectDone map listed path store.file after.store.file := by
    apply (reconcileProject_acts map listed).foldlM_of_idle
    · intro path progress first hfirst hdone
      exact reconcileProject_idle (fun _ _ h ↦ h) hfirst hdone
    · exact fun path _ other _ ↦ hdisjoint path other
    · exact fun path hpath ↦ hparses path ((hwalked path).mp hpath)
    · exact fun path _ ↦ Or.inr fun _ _ ↦ rfl
  obtain ⟨after, hfold, hprojects, hframe, hdone⟩ := hpass
  refine ⟨after, hfold, hprojects, ?_, ?_⟩
  · intro file hfile
    apply hframe
    intro path hpath hmem
    have hregistered := (hwalked path).mp hpath
    rw [← show file.projectPath = path from hmem, hfile] at hregistered
    cases hregistered
  · exact fun path hpath ↦ hdone path ((hwalked path).mpr hpath)

section

variable {before after : PlanView}

/-- A slice of a reconciled project is settled and checked. -/
theorem ProjectDone.slice (h : ProjectDone map listed path before after)
    (hparses : ProjectParses before path)
    (hmilestone : (before (.milestoneMd path milestoneSlug)).isSome = true)
    (hslice : (before.slice path milestoneSlug sliceSlug "slice.md").isSome = true) :
    SliceDone map listed path milestoneSlug ⟨sliceSlug, .pending⟩ before after := by
  have hparsesMilestone := hparses milestoneSlug hmilestone
  obtain ⟨_, _, _, hown, _⟩ := hparsesMilestone.own
  obtain ⟨_, _, hownSlice⟩ := (hparsesMilestone.slices sliceSlug hslice).own
  exact (h.milestones ⟨milestoneSlug, none, none⟩ _ _ hown).slices ⟨sliceSlug, .pending⟩ _ _
    hownSlice

section

variable (h : ProjectDone map listed path before after)

include h

/-- Reconciliation makes no milestone and no slice. -/
theorem ProjectDone.isSome_milestone (hafter : (after (.milestoneMd path milestoneSlug)).isSome = true) :
    (before (.milestoneMd path milestoneSlug)).isSome = true := by
  cases hbefore : before (.milestoneMd path milestoneSlug) with
  | none =>
    rw [(h.others milestoneSlug hbefore).1] at hafter
    cases hafter
  | some file => rfl

theorem ProjectDone.isSome_slice (hparses : ProjectParses before path)
    (hmilestone : (before (.milestoneMd path milestoneSlug)).isSome = true)
    (hafter : (after.slice path milestoneSlug sliceSlug "slice.md").isSome = true) :
    (before.slice path milestoneSlug sliceSlug "slice.md").isSome = true := by
  obtain ⟨_, _, _, hown, _⟩ := (hparses milestoneSlug hmilestone).own
  have hdone := h.milestones ⟨milestoneSlug, none, none⟩ _ _ hown
  cases hbefore : before.slice path milestoneSlug sliceSlug "slice.md" with
  | none =>
    rw [hdone.others sliceSlug hbefore, hbefore] at hafter
    cases hafter
  | some file => rfl

theorem ProjectDone.status_slice (hparses : ProjectParses before path)
    (hmilestone : (after (.milestoneMd path milestoneSlug)).isSome = true) {shown : Bool}
    (hafter : after (.inSlice path milestoneSlug sliceSlug "slice.md") =
      some (.parsed fields shown)) :
    (TasksCompleted (after.slice path milestoneSlug sliceSlug) →
        SliceStatus.ofField (fields "status") = .completed) ∧
      (TaskFailed (after.slice path milestoneSlug sliceSlug) →
        SliceStatus.ofField (fields "status") = .failed) := by
  have hmilestoneBefore := h.isSome_milestone hmilestone
  have hslice := h.isSome_slice hparses hmilestoneBefore (Option.isSome_of_eq_some hafter)
  obtain ⟨_, _, hown⟩ := ((hparses milestoneSlug hmilestoneBefore).slices sliceSlug hslice).own
  exact status_of_recheckedSlice
    (((h.slice hparses hmilestoneBefore hslice).own _ _ hown).symm.trans hafter)

theorem ProjectDone.status_milestone (hparses : ProjectParses before path) {shown : Bool}
    (hafter : after (.milestoneMd path milestoneSlug) = some (.parsed fields shown))
    (hcompleted : SlicesCompleted (after.slice path milestoneSlug)) :
    fields "status" = some (.string "completed") := by
  have hmilestone := h.isSome_milestone (Option.isSome_of_eq_some hafter)
  obtain ⟨_, _, _, hown, _⟩ := (hparses milestoneSlug hmilestone).own
  have hchecked := (h.milestones ⟨milestoneSlug, none, none⟩ _ _ hown).own _ _ hown
  exact status_of_recheckedMilestone (hchecked.symm.trans hafter) hcompleted

theorem ProjectDone.task (hparses : ProjectParses before path)
    (htask : IsPlanTask before path milestoneSlug sliceSlug name fields)
    {planStatus : PlanTaskStatus}
    (hdue : dueStatus (execTask map) (taskFromFile (taskSlugOf name) fields) = some planStatus) :
    ∃ shown, after (.inSlice path milestoneSlug sliceSlug name) =
      restated fields planStatus.text shown := by
  have hname : name ≠ "slice.md" := by
    intro hname
    have hnamed := htask.task.named
    rw [hname, isTaskFileName_slice] at hnamed
    cases hnamed
  have hsettled := (h.slice hparses htask.milestone htask.slice).tasks name hname
  rw [htask.task.listed, settledFile, if_pos htask.task.named, hdue] at hsettled
  exact ⟨_, hsettled⟩

end

/-- A file below the path of a reconciled project is as it was, or it has been given the status that
is due. -/
theorem ProjectDone.others_or_due {ids : List YamlValue} (hmap : LooksUp table ids map)
    (h : ProjectDone map listed path before after) (hparses : ProjectParses before path)
    {file : PlanFile} (hpath : file.projectPath = path) :
    after file = before file ∨ ∃ fields shown text shownAfter,
      before file = some (.parsed fields shown) ∧ after file = restated fields text shownAfter ∧
        DueText table before after text file := by
  cases file with
  | milestoneMd filePath slug =>
    change filePath = path at hpath
    subst hpath
    cases hbefore : before (.milestoneMd filePath slug) with
    | none => exact Or.inl (h.others slug hbefore).1
    | some file =>
      obtain ⟨fields, shown, _, hown, _⟩ := (hparses slug (Option.isSome_of_eq_some hbefore)).own
      have hafter := (h.milestones ⟨slug, none, none⟩ _ _ hown).own _ _ hown
      rw [← hbefore, hafter, hown]
      unfold recheckedMilestone
      split
      · rename_i hcompleted
        exact Or.inr ⟨fields, shown, "completed", true, rfl, rfl, rfl, hcompleted.1⟩
      · exact Or.inl rfl
  | inSlice filePath slug slice fileName =>
    change filePath = path at hpath
    subst hpath
    cases hmilestone : before (.milestoneMd filePath slug) with
    | none => exact Or.inl (congrFun (congrFun (h.others slug hmilestone).2 slice) fileName)
    | some milestoneFile =>
      have hsome := Option.isSome_of_eq_some hmilestone
      cases hslice : before.slice filePath slug slice "slice.md" with
      | none =>
        obtain ⟨_, _, _, hown, _⟩ := (hparses slug hsome).own
        exact Or.inl (congrFun
          ((h.milestones ⟨slug, none, none⟩ _ _ hown).others slice hslice) fileName)
      | some sliceFile =>
        have hsomeSlice := Option.isSome_of_eq_some hslice
        have hdone := h.slice hparses hsome hsomeSlice
        by_cases hname : fileName = "slice.md"
        · subst hname
          obtain ⟨fields, shown, hown⟩ := ((hparses slug hsome).slices slice hsomeSlice).own
          have hafter : after (.inSlice filePath slug slice "slice.md") = _ :=
            hdone.own fields shown hown
          have hbefore : before (.inSlice filePath slug slice "slice.md") =
            some (.parsed fields shown) := hown
          rw [hafter, hbefore]
          unfold recheckedSlice
          split
          · rename_i hcompleted
            exact Or.inr ⟨fields, shown, "completed", true, rfl, rfl,
              Or.inr (Or.inl ⟨rfl, rfl, hcompleted.1⟩)⟩
          · split
            · rename_i hfailed
              exact Or.inr ⟨fields, shown, "failed", true, rfl, rfl,
                Or.inr (Or.inr ⟨rfl, rfl, hfailed.1⟩)⟩
            · exact Or.inl rfl
        · by_cases htask : ∃ fields, HasTask (before.slice filePath slug slice) fileName fields
          · obtain ⟨fields, htask⟩ := htask
            have hplanTask : IsPlanTask before filePath slug slice fileName fields :=
              ⟨hsome, hsomeSlice, htask⟩
            cases hdue : dueStatus (execTask map) (taskFromFile (taskSlugOf fileName) fields) with
            | none =>
              have hafter := hdone.tasks fileName hname
              rw [htask.listed, settledFile, if_pos htask.named, hdue] at hafter
              exact Or.inl (hafter.trans htask.listed.symm)
            | some planStatus =>
              obtain ⟨shown, hafter⟩ := h.task hparses hplanTask hdue
              exact Or.inr ⟨fields, true, planStatus.text, shown, htask.listed, hafter,
                Or.inl ⟨fields, planStatus, hplanTask, pointsAtTerminal_of_dueStatus hmap hdue,
                  rfl⟩⟩
          · have hafter := hdone.tasks fileName hname
            rw [settledFile_of_not_hasTask fun fields hnamed hfile ↦
              htask ⟨fields, hnamed, hfile⟩] at hafter
            exact Or.inl hafter

end

/-- The plan tasks that wait after a reconciliation waited before it, for the same task. -/
theorem execTaskIds_subset {after : PlanStore} (hprojects : after.projects = store.projects)
    (hparses : ∀ path, store.registered path = true → ProjectParses store.file path)
    (hdone : ∀ path, store.registered path = true →
      ProjectDone map listed path store.file after.file) :
    execTaskIds after ⊆ execTaskIds store := by
  have hregistered : after.registered = store.registered := registered_eq hprojects
  intro id hid
  have hparsesAfter : ∀ path, after.registered path = true → ProjectParses after.file path := by
    intro path hpath
    rw [hregistered] at hpath
    exact (hdone path hpath).parses (hparses path hpath)
  obtain ⟨path, hpath, milestoneSlug, sliceSlug, name, fields, htask, hawaited⟩ :=
    (mem_execTaskIds_iff hparsesAfter id).mp hid
  rw [hregistered] at hpath
  have hproject := hdone path hpath
  have hmilestone := hproject.isSome_milestone htask.milestone
  have hslice := hproject.isSome_slice (hparses path hpath) hmilestone htask.slice
  apply (mem_execTaskIds_iff hparses id).mpr
  refine ⟨path, hpath, milestoneSlug, sliceSlug, name, fields, ⟨hmilestone, hslice, ?_⟩, hawaited⟩
  have hname : name ≠ "slice.md" := by
    intro hname
    have hnamed := htask.task.named
    rw [hname, isTaskFileName_slice] at hnamed
    cases hnamed
  have hlisted := htask.task.listed
  rw [(hproject.slice (hparses path hpath) hmilestone hslice).tasks name hname] at hlisted
  -- a file the pass has written is completed or failed, so it waits for nothing
  unfold settledFile at hlisted
  split at hlisted
  · rename_i before hbefore
    rw [if_pos htask.task.named] at hlisted
    split at hlisted
    · rename_i status hdue
      have hterminal := terminal_of_dueStatus hdue
      simp only [restated, Option.some.injEq, MdFile.parsed.injEq] at hlisted
      have hstatus : (taskFromFile (taskSlugOf name) fields).status = status := by
        rw [taskFromFile, ← hlisted.1, merge_statusChange_status]
        exact ofField_text hterminal
      obtain ⟨⟨hcompleted, hfailed⟩, _⟩ := (awaitedId_eq_some_iff _ _).mp hawaited
      rw [hstatus] at hcompleted hfailed
      exact absurd hterminal (by simp [hcompleted, hfailed])
    · cases hlisted
      exact ⟨htask.task.named, hbefore⟩
  · exact ⟨htask.task.named, hlisted⟩

/-- Where all plan files parse, all names are safe and the lookup returns, the reconciliation
returns. Every plan task that points at an execution task that is over then has the matching
status; every slice with plan tasks is completed when these are, and failed when one of them is;
every milestone with slices is completed when these are; no other file has changed. A second run
changes nothing and counts nothing. -/
theorem reconcilePlanStatuses_complete (lookup : TaskLookup table)
    (listed : PlanTaskLocation → Bool)
    (hparses : ∀ path, store.registered path = true → ProjectParses store.file path)
    (hlookup : execTaskIds store ≠ [] → ∃ rows, lookup.select (execTaskIds store) = .ok rows) :
    ∃ after, reconcilePlanStatuses lookup listed store = .ok after ∧
      Reconciled table (store.registered · = true) store.file after.store.file ∧
      ∀ listedAgain, reconcilePlanStatuses lookup listedAgain after.store =
        .ok { store := after.store } := by
  obtain ⟨map, hmap, hlooksUp, hlater⟩ := execById_of_select hlookup
  obtain ⟨after, hfold, hprojects, hframe, hdone⟩ := reconcileProjects_done map listed hparses
  have hregistered : after.store.registered = store.registered := registered_eq hprojects
  have hparsesAfter : ∀ path, after.store.registered path = true →
      ProjectParses after.store.file path := by
    intro path hpath
    rw [hregistered] at hpath
    exact (hdone path hpath).parses (hparses path hpath)
  refine ⟨after, ?_, ?_, ?_⟩
  · rw [reconcilePlanStatuses, hmap]
    exact hfold
  · constructor
    · intro path hpath milestoneSlug sliceSlug name fields planStatus htask hterminal
      apply (hdone path hpath).task (hparses path hpath) htask
      apply hterminal.dueStatus_eq hlooksUp lookup.positive
      intro id hid
      exact (mem_execTaskIds_iff hparses id).mpr
        ⟨path, hpath, milestoneSlug, sliceSlug, name, fields, htask, hid⟩
    · intro path hpath milestoneSlug hmilestone sliceSlug fields shown hslice
      exact (hdone path hpath).status_slice (hparses path hpath) hmilestone hslice
    · intro path hpath milestoneSlug fields shown hmilestone hcompleted
      exact (hdone path hpath).status_milestone (hparses path hpath) hmilestone hcompleted
    · intro file
      cases hpath : store.registered file.projectPath with
      | false => exact Or.inl (hframe file hpath)
      | true =>
        rcases (hdone _ hpath).others_or_due hlooksUp (hparses _ hpath) rfl with hkept | hdue
        · exact Or.inl hkept
        · obtain ⟨fields, shown, text, shownAfter, hbefore, hafter, htext⟩ := hdue
          exact Or.inr ⟨fields, shown, text, shownAfter, hbefore, hafter, rfl, htext⟩
  · intro listedAgain
    obtain ⟨later, hagain, hfewer⟩ := hlater _ (execTaskIds_subset hprojects hparses hdone)
    rw [reconcilePlanStatuses, hagain]
    apply foldlM_eq_self
    intro path hpath
    have hpath' := (mem_walkedPaths_iff hparsesAfter path).mp hpath
    rw [hregistered] at hpath'
    exact reconcileProject_idle hfewer (hparses path hpath') (hdone path hpath')

end

/-! ## A tree with one plan task -/

section

/-- Entries with one key have distinct keys. -/
def oneEntry {Key Value : Type} (key : Key) (value : Value) : JsMap Key Value :=
  ⟨[(key, value)], List.nodup_singleton key⟩

/-- A milestone with one slice and one plan task, which has these fields. -/
def onePlanTask (fields : Frontmatter) : PlanStore where
  projects := [⟨1, some "/work"⟩]
  plans := fun _ ↦ oneEntry "00-core"
    { milestoneMd := some (.parsed (statusChange "active") true)
      slices := oneEntry "00-api"
        ((oneEntry "slice.md" (.parsed (statusChange "active") true)).set "00-route.md"
          (.parsed fields true)) }

theorem get_oneEntry {Key Value : Type} [DecidableEq Key] (key : Key) (value : Value) (other : Key) :
    (oneEntry key value).get other = if other = key then some value else none := by
  rw [JsMap.get, oneEntry, JsMap.lookup_entry]
  rfl

theorem projectParses_onePlanTask (fields : Frontmatter) (path : String) :
    ProjectParses (onePlanTask fields).file path := by
  intro slug hsome
  have hslug : slug = "00-core" := by
    by_contra hslug
    simp [PlanStore.file, onePlanTask, get_oneEntry, hslug] at hsome
  subst hslug
  refine ⟨by decide, ⟨_, _, none, rfl, rfl⟩, ?_⟩
  intro slice hslice
  have hname : slice = "00-api" := by
    by_contra hname
    simp [PlanView.slice, PlanStore.file, onePlanTask, sliceDir, milestoneDir, get_oneEntry,
      hname] at hslice
  subst hname
  refine ⟨by decide, ⟨_, _, rfl⟩, ?_⟩
  intro name taskFields htask
  have hname : name = "00-route.md" := by
    have hlisted := htask.listed
    by_contra hname
    have hown : name ≠ "slice.md" := by
      rintro rfl
      exact absurd htask.named (by decide)
    simp [PlanView.slice, PlanStore.file, onePlanTask, sliceDir, milestoneDir, get_oneEntry,
      JsMap.get_set, hname, hown] at hlisted
  subst hname
  decide

/-- A table with one task, which is over. -/
def oneDoneTask : TaskLookup fun id ↦ if id = 5 then some .done else none where
  select ids := .ok (if YamlValue.number 5 ∈ ids then [(5, .done)] else [])
  sound ids rows hrows row hrow := by
    cases hrows
    split at hrow
    · rw [List.mem_singleton.mp hrow]
      rfl
    · cases hrow
  complete ids rows hrows id status hid hstatus := by
    cases hrows
    split at hstatus
    · rename_i hfive
      cases hstatus
      subst hfive
      have hfive : YamlValue.number 5 ∈ ids := hid
      rw [if_pos hfive]
      exact List.mem_singleton_self _
    · cases hstatus
  fewer ids others hothers rows hrows := by
    cases hrows
    refine ⟨_, rfl, ?_⟩
    split
    · rename_i hfive
      rw [if_pos (hothers hfive)]
      exact List.Subset.refl _
    · exact List.nil_subset _
  positive := rfl

/-- A plan task that was left active though its execution task is done. -/
theorem reconcilePlanStatuses_complete_stale :
    ∃ after, reconcilePlanStatuses oneDoneTask (fun _ ↦ true)
        (onePlanTask ((statusChange "active").merge fun key ↦
          if key = "execution_task_id" then some (.number 5) else none)) = .ok after ∧
      ∀ listedAgain, reconcilePlanStatuses oneDoneTask listedAgain after.store =
        .ok { store := after.store } := by
  obtain ⟨after, hafter, _, hagain⟩ := reconcilePlanStatuses_complete oneDoneTask (fun _ ↦ true)
    (fun path _ ↦ projectParses_onePlanTask _ path) (fun _ ↦ ⟨_, rfl⟩)
  exact ⟨after, hafter, hagain⟩

/-- The status in a file of the slice. -/
def apiStatus (view : PlanView) (name : String) : Option YamlValue :=
  match view (.inSlice "/work" "00-core" "00-api" name) with
  | some (.parsed fields true) => fields "status"
  | _ => none

/-- The file of a slice changes though none of its plan tasks is completed: one of them has
failed, and then the slice is failed too. -/
theorem not_reconcilePlanStatuses_changesCompletedOnly :
    ¬∀ (table : TaskId → Option TaskStatus) (lookup : TaskLookup table)
      (listed : PlanTaskLocation → Bool) (store : PlanStore),
      (∀ path, store.registered path = true → ProjectParses store.file path) →
      (execTaskIds store ≠ [] → ∃ rows, lookup.select (execTaskIds store) = .ok rows) →
      ∃ after, reconcilePlanStatuses lookup listed store = .ok after ∧
        ∀ file, after.store.file file = store.file file ∨
          (∃ path milestoneSlug sliceSlug name fields planStatus,
            file = .inSlice path milestoneSlug sliceSlug name ∧
              IsPlanTask store.file path milestoneSlug sliceSlug name fields ∧
              PointsAtTerminal table fields planStatus) ∨
          (∃ path milestoneSlug sliceSlug, file = .inSlice path milestoneSlug sliceSlug "slice.md" ∧
            TasksCompleted (PlanView.slice after.store.file path milestoneSlug sliceSlug)) ∨
          ∃ path milestoneSlug, file = .milestoneMd path milestoneSlug ∧
            SlicesCompleted (PlanView.slice after.store.file path milestoneSlug) := by
  intro h
  have hrun : ((reconcilePlanStatuses oneDoneTask (fun _ ↦ true)
      (onePlanTask (statusChange "failed"))).toOption.map fun after ↦
        (apiStatus after.store.file "slice.md", apiStatus after.store.file "00-route.md")) =
      some (some (.string "failed"), some (.string "failed")) := by decide +kernel
  obtain ⟨after, hafter, hothers⟩ := h _ oneDoneTask (fun _ ↦ true)
    (onePlanTask (statusChange "failed")) (fun path _ ↦ projectParses_onePlanTask _ path)
    (fun _ ↦ ⟨_, rfl⟩)
  rw [hafter] at hrun
  obtain ⟨hslice, htask⟩ := Prod.mk.inj (Option.some.inj hrun)
  rcases hothers (.inSlice "/work" "00-core" "00-api" "slice.md") with
    hkept | ⟨_, _, _, _, _, _, hfile, hplanTask, _⟩ | ⟨_, _, _, hfile, hcompleted⟩ | hmilestone
  · simp only [apiStatus] at hslice
    rw [hkept] at hslice
    exact absurd hslice (by decide)
  · cases hfile
    exact absurd hplanTask.task.named (by decide)
  · cases hfile
    simp only [apiStatus] at htask
    split at htask
    · rename_i fields hlisted
      have hcompletedTask := hcompleted.completed "00-route.md" fields ⟨by decide, hlisted⟩
      rw [htask] at hcompletedTask
      cases hcompletedTask
    · cases htask
  · obtain ⟨_, _, hfile, _⟩ := hmilestone
    cases hfile

end

end Flockctl.AutoExecutor
