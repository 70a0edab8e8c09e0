import Flockctl.AutoExecutor.Reconciled

/-!
# Reconciling a second time

What a reconciliation leaves does not move: the plan tasks it has settled are completed or failed,
so that no execution task is due any more, and the slices and milestones it has checked agree with
what they hold.
-/

namespace Flockctl.AutoExecutor

open Collections Plan Tasks Ai Transition

/-! ## Projects -/

section

variable (execById : JsMap TaskId TaskStatus) (listed : PlanTaskLocation → Bool)

/-- The milestones of a project are settled and checked, and nothing else below its path changes. -/
structure ProjectDone (path : String) (before after : PlanView) : Prop where
  milestones : ∀ m : MilestoneData, ∀ fields shown,
    before (.milestoneMd path m.slug) = some (.parsed fields shown) →
      MilestoneDone execById listed path m before after
  others : ∀ slug, before (.milestoneMd path slug) = none →
    after (.milestoneMd path slug) = none ∧ after.slice path slug = before.slice path slug

def projectRegion (path : String) : Set PlanFile := {file | file.projectPath = path}

theorem project_eq_of_eqOn {path : String} {first second : PlanView}
    (h : Set.EqOn first second (projectRegion path)) :
    first.slice path = second.slice path ∧
      ∀ slug, first (.milestoneMd path slug) = second (.milestoneMd path slug) := by
  constructor
  · funext slug sliceSlug name
    exact h rfl
  · exact fun slug ↦ h rfl

variable {execById listed} in
theorem MilestoneDone.congr {path : String} {m : MilestoneData}
    {first second final other : PlanView} (hdone : MilestoneDone execById listed path m first final)
    (hsame : Set.EqOn first second (milestoneRegion path m.slug))
    (hfinal : Set.EqOn final other (milestoneRegion path m.slug)) :
    MilestoneDone execById listed path m second other :=
  (reconcileMilestone_acts execById listed path).done_local m _ _ _ _ hsame hfinal hdone

theorem milestoneRegion_subset (path slug : String) :
    milestoneRegion path slug ⊆ projectRegion path := by
  rintro _ (rfl | ⟨sliceSlug, name, rfl⟩)
  · rfl
  · rfl

theorem pairwise_disjoint_milestones {path : String} {milestones : List MilestoneData}
    (hnodup : (milestones.map (·.slug)).Nodup) :
    milestones.Pairwise fun m other ↦
      Disjoint (milestoneRegion path m.slug) (milestoneRegion path other.slug) := by
  rw [List.Nodup, List.pairwise_map] at hnodup
  apply hnodup.imp
  intro m other hslug
  rw [Set.disjoint_left]
  rintro _ (rfl | ⟨sliceSlug, name, rfl⟩) (hsame | ⟨otherSlice, otherName, hsame⟩)
  · exact hslug (PlanFile.milestoneMd.inj hsame).2
  · cases hsame
  · cases hsame
  · exact hslug (PlanFile.inSlice.inj hsame).2.1

/-- The milestones of a project whose files parse. -/
theorem listMilestones_of_parses {store : PlanStore} {path : String}
    (hparses : ProjectParses store.file path) :
    ∃ milestones, listMilestones (store.plans path) = .ok milestones ∧
      (milestones.map (·.slug)).Nodup ∧
      (∀ m ∈ milestones, MilestoneReady path m store.file) ∧
      ∀ slug, (store.file (.milestoneMd path slug)).isSome = true → ∃ m ∈ milestones, m.slug = slug := by
  have hloads (slug : String) (file : MdFile)
      (hsome : store.file (.milestoneMd path slug) = some file) :
      ∃ milestone, (file.read).bind (milestoneFromFile slug) = .ok milestone := by
    obtain ⟨fields, shown, missionId, hown, hmission⟩ :=
      (hparses slug (Option.isSome_of_eq_some hsome)).own
    cases hsome.symm.trans hown
    exact ⟨⟨slug, fields "status", missionId⟩, by
      simp [MdFile.read, Except.bind, milestoneFromFile, hmission, bind, pure, Except.pure]⟩
  obtain ⟨milestones, hmilestones, hnodup, hmem⟩ := listMilestones_spec store path hloads
  refine ⟨milestones, hmilestones, hnodup, ?_, ?_⟩
  · intro m hm
    obtain ⟨slug, file, hfile, hread⟩ := (hmem m).mp hm
    have hslug : m.slug = slug := slugOf_of_read slug_of_milestoneFromFile hread
    have hmilestone := hparses slug (Option.isSome_of_eq_some hfile)
    subst hslug
    refine ⟨hmilestone, ?_⟩
    intro fields shown hfile'
    cases hfile.symm.trans hfile'
    obtain ⟨_, _, missionId, hown, hmission⟩ := hmilestone.own
    cases hfile.symm.trans hown
    simp only [MdFile.read, Except.bind, milestoneFromFile, hmission, bind, pure, Except.pure,
      Except.ok.injEq] at hread
    rw [← hread]
  · intro slug hsome
    obtain ⟨file, hfile⟩ := Option.isSome_iff_exists.mp hsome
    obtain ⟨m, hread⟩ := hloads slug file hfile
    exact ⟨m, (hmem m).mpr ⟨slug, file, hfile, hread⟩,
      slugOf_of_read slug_of_milestoneFromFile hread⟩

theorem reconcileProject_acts :
    ActsInRegions (fun progress : Progress ↦ progress.store.projects)
      (fun progress ↦ progress.store.file) (reconcileProject execById listed) projectRegion
      (fun path view ↦ ProjectParses view path) (ProjectDone execById listed) where
  returns progress path hparses := by
    obtain ⟨milestones, hmilestones, hnodup, hready, hlisted⟩ := listMilestones_of_parses hparses
    obtain ⟨after, hfold, hprojects, hframe, hdone⟩ :=
      (reconcileMilestone_acts execById listed path).foldlM_of_pairwise
        (pairwise_disjoint_milestones hnodup) hready
    refine ⟨after, ?_, hprojects, ?_, ?_, ?_⟩
    · unfold reconcileProject
      rw [hmilestones]
      exact hfold
    · intro cell hcell
      apply hframe
      intro m _ hmem
      exact hcell (milestoneRegion_subset path m.slug hmem)
    · intro m fields shown hfile
      obtain ⟨found, hfound, hslug⟩ := hlisted m.slug (Option.isSome_of_eq_some hfile)
      have hfoundDone := hdone found hfound
      constructor
      · rw [← hslug]
        exact hfoundDone.slices
      · rw [← hslug]
        exact hfoundDone.others
      · rw [← hslug]
        exact hfoundDone.own
    · intro slug hnone
      have hfree (cell : PlanFile) (hcell : cell ∈ milestoneRegion path slug) :
          after.store.file cell = progress.store.file cell := by
        apply hframe
        intro m hm hmem
        obtain ⟨fields, shown, _, hown, _⟩ := (hready m hm).parses.own
        have hslug : m.slug = slug := by
          rcases hcell with rfl | ⟨sliceSlug, name, rfl⟩ <;>
            rcases hmem with hsame | ⟨otherSlice, otherName, hsame⟩
          · exact (PlanFile.milestoneMd.inj hsame).2.symm
          · cases hsame
          · cases hsame
          · exact (PlanFile.inSlice.inj hsame).2.1.symm
        rw [hslug, hnone] at hown
        cases hown
      constructor
      · rw [hfree _ (Or.inl rfl), hnone]
      · funext sliceSlug name
        exact hfree _ (Or.inr ⟨sliceSlug, name, rfl⟩)
  ready_local path first second hsame hparses := by
    obtain ⟨hslice, hown⟩ := project_eq_of_eqOn hsame
    intro slug hsome
    rw [← hown] at hsome
    rw [← hown, ← hslice]
    exact hparses slug hsome
  done_local path first second final other hsame hfinal hdone := by
    obtain ⟨hslice, hown⟩ := project_eq_of_eqOn hsame
    obtain ⟨hsliceFinal, hownFinal⟩ := project_eq_of_eqOn hfinal
    constructor
    · intro m fields shown hfile
      rw [← hown] at hfile
      exact (hdone.milestones m fields shown hfile).congr
        (hsame.mono (milestoneRegion_subset path m.slug))
        (hfinal.mono (milestoneRegion_subset path m.slug))
    · intro slug hnone
      rw [← hown] at hnone
      rw [← hownFinal, ← hsliceFinal, ← hslice]
      exact hdone.others slug hnone

end

/-! ## Nothing is left to do -/

theorem merge_statusChange_status (fields : Frontmatter) (text : String) :
    fields.merge (statusChange text) "status" = some (.string text) := rfl

theorem merge_statusChange_of_ne (fields : Frontmatter) (text : String) {key : String}
    (hkey : key ≠ "status") : fields.merge (statusChange text) key = fields key := by
  simp [Frontmatter.merge, statusChange, hkey]

theorem terminal_of_terminalPlanStatus {status : TaskStatus} {planStatus : PlanTaskStatus}
    (h : terminalPlanStatus status = some planStatus) :
    planStatus = .completed ∨ planStatus = .failed := by
  cases status <;> simp [terminalPlanStatus] at h <;> simp [← h]

theorem terminal_of_dueStatus {exec : YamlValue → Option TaskStatus} {pt : PlanTaskData}
    {status : PlanTaskStatus} (h : dueStatus exec pt = some status) :
    status = .completed ∨ status = .failed := by
  obtain ⟨taskStatus, _, hterminal⟩ := Option.bind_eq_some_iff.mp h
  exact terminal_of_terminalPlanStatus hterminal

theorem ofField_text {status : PlanTaskStatus} (h : status = .completed ∨ status = .failed) :
    PlanTaskStatus.ofField (some (.string status.text)) = status := by
  rcases h with rfl | rfl
  · rfl
  · rfl

/-- A settled plan task is not due. -/
theorem dueStatus_of_settledFile {execById : JsMap TaskId TaskStatus}
    {listed : PlanTaskLocation → Bool} {path milestoneSlug sliceSlug name : String}
    {file : Option MdFile} {fields : Frontmatter} (hnamed : isTaskFileName name = true)
    (h : settledFile execById listed path milestoneSlug sliceSlug name file =
      some (.parsed fields true)) :
    dueStatus (execTask execById) (taskFromFile (taskSlugOf name) fields) = none := by
  unfold settledFile at h
  split at h
  · rename_i before
    rw [if_pos hnamed] at h
    split at h
    · rename_i status hdue
      have hterminal := terminal_of_dueStatus hdue
      simp only [restated, Option.some.injEq, MdFile.parsed.injEq] at h
      have hstatus : (taskFromFile (taskSlugOf name) fields).status = status := by
        rw [taskFromFile, ← h.1, merge_statusChange_status]
        exact ofField_text hterminal
      rw [dueStatus, awaitedId, if_pos (by rw [hstatus]; exact hterminal)]
      rfl
    · rename_i hdue
      cases h
      exact hdue
  · rename_i hother
    exact absurd h (hother fields)

/-- A failed plan task is not completed. -/
theorem TaskFailed.not_tasksCompleted {files : String → Option MdFile} (h : TaskFailed files) :
    ¬TasksCompleted files := by
  intro hcompleted
  obtain ⟨name, fields, htask, hfailed⟩ := h
  rw [hcompleted.completed name fields htask] at hfailed
  cases hfailed

/-- A checked slice agrees with its plan tasks. -/
theorem status_of_recheckedSlice {files : String → Option MdFile} {fields later : Frontmatter}
    {shown laterShown : Bool} (h : recheckedSlice files fields shown = some (.parsed later laterShown)) :
    (TasksCompleted files → SliceStatus.ofField (later "status") = .completed) ∧
      (TaskFailed files → SliceStatus.ofField (later "status") = .failed) := by
  unfold recheckedSlice at h
  split at h
  · rename_i hcompleted
    cases h
    exact ⟨fun _ ↦ rfl, fun hfailed ↦ absurd hcompleted.1 hfailed.not_tasksCompleted⟩
  · rename_i hopen
    split at h
    · rename_i hfailed
      cases h
      exact ⟨fun hcompleted ↦ absurd hcompleted hfailed.1.not_tasksCompleted, fun _ ↦ rfl⟩
    · rename_i hkept
      cases h
      rw [not_and_not_right] at hopen hkept
      exact ⟨hopen, hkept⟩

/-- A checked milestone agrees with its slices. -/
theorem status_of_recheckedMilestone {slices : String → String → Option MdFile}
    {fields later : Frontmatter} {shown laterShown : Bool}
    (h : recheckedMilestone slices fields shown = some (.parsed later laterShown))
    (hcompleted : SlicesCompleted slices) : later "status" = some (.string "completed") := by
  unfold recheckedMilestone at h
  split at h
  · cases h
    rfl
  · rename_i hopen
    cases h
    rw [not_and_not_right] at hopen
    exact hopen hcompleted

section

variable {execById later : JsMap TaskId TaskStatus} {listed other : PlanTaskLocation → Bool}
  {path milestoneSlug : String}

/-- What a later lookup finds an earlier one has found. -/
def Fewer (later earlier : JsMap TaskId TaskStatus) : Prop :=
  ∀ id status, later.get id = some status → earlier.get id = some status

theorem dueStatus_eq_none_of_fewer (hfewer : Fewer later execById) {pt : PlanTaskData}
    (h : dueStatus (execTask execById) pt = none) : dueStatus (execTask later) pt = none := by
  cases hlater : dueStatus (execTask later) pt with
  | none => rfl
  | some status =>
    obtain ⟨taskStatus, hfound, hterminal⟩ := Option.bind_eq_some_iff.mp hlater
    obtain ⟨id, hid, hexec⟩ := Option.bind_eq_some_iff.mp hfound
    have hearlier : execTask execById id = some taskStatus := by
      unfold execTask at hexec ⊢
      split at hexec
      · exact hfewer _ _ hexec
      · cases hexec
    rw [dueStatus, hid, Option.bind_some, hearlier, Option.bind_some, hterminal] at h
    cases h

/-- The plan tasks of a slice that has been reconciled are not due. -/
theorem SliceDone.dueStatus_eq_none {s : SliceData} {before after : PlanView}
    (h : SliceDone execById listed path milestoneSlug s before after) {name : String}
    {fields : Frontmatter} (htask : HasTask (after.slice path milestoneSlug s.slug) name fields) :
    dueStatus (execTask execById) (taskFromFile (taskSlugOf name) fields) = none := by
  have hname : name ≠ "slice.md" := by
    intro hname
    have hnamed := htask.named
    rw [hname, isTaskFileName_slice] at hnamed
    cases hnamed
  have hlisted := htask.listed
  rw [h.tasks name hname] at hlisted
  exact dueStatus_of_settledFile htask.named hlisted

theorem reconcileSlice_idle (hfewer : Fewer later execById) {found s : SliceData}
    (hslug : found.slug = s.slug) {before : PlanView}
    {progress : Progress} (hmilestone : isSafePlanSlug milestoneSlug = true)
    (hparses : SliceParses (before.slice path milestoneSlug s.slug) s.slug)
    (hdone : SliceDone execById listed path milestoneSlug s before progress.store.file)
    (hready : SliceReady path milestoneSlug found progress.store.file) :
    reconcileSlice later other path milestoneSlug progress found = .ok progress := by
  obtain ⟨tasks, htasks, _, hmem⟩ :=
    listPlanTasks_spec progress.store path hmilestone hready.parses.safe
  have hidle (pt : PlanTaskData) (hpt : pt ∈ tasks) :
      reconcileTask later other path milestoneSlug found.slug progress pt = .ok progress := by
    obtain ⟨name, fields, htask, rfl⟩ := (hmem pt).mp hpt
    rw [hslug] at htask
    rw [reconcileTask_eq, dueStatus_eq_none_of_fewer hfewer (hdone.dueStatus_eq_none htask)]
  obtain ⟨fields, shown, hbefore⟩ := hparses.own
  obtain ⟨written, writtenShown, hafter⟩ := hready.parses.own
  have hchecked := hdone.own fields shown hbefore
  rw [← hslug, hafter] at hchecked
  obtain ⟨hcompleted, hfailed⟩ := status_of_recheckedSlice hchecked.symm
  have hstatus := hready.status written writtenShown hafter
  unfold reconcileSlice
  rw [htasks]
  simp only [foldlM_eq_self hidle, bind, Except.bind, recheckSlice, htasks]
  rw [if_neg, if_neg]
  · rfl
  · rw [Bool.and_eq_true_iff, anyFailed_iff_taskFailed hmem, bne_iff_ne, not_and_not_right, hstatus]
    exact hfailed
  · rw [Bool.and_eq_true_iff, allCompleted_iff_tasksCompleted hmem, bne_iff_ne, not_and_not_right,
      hstatus]
    exact hcompleted

/-- A milestone whose files parse still parses when it has been reconciled. -/
theorem MilestoneDone.parses {m : MilestoneData} {before after : PlanView}
    (h : MilestoneDone execById listed path m before after)
    (hparses : MilestoneParses (before.slice path m.slug) (before (.milestoneMd path m.slug))
      m.slug) :
    MilestoneParses (after.slice path m.slug) (after (.milestoneMd path m.slug)) m.slug where
  safe := hparses.safe
  own := by
    obtain ⟨fields, shown, missionId, hfile, hmission⟩ := hparses.own
    rw [h.own fields shown hfile]
    unfold recheckedMilestone
    split
    · refine ⟨_, _, missionId, rfl, ?_⟩
      rw [merge_statusChange_of_ne _ _ (by decide), hmission]
    · exact ⟨fields, shown, missionId, rfl, hmission⟩
  slices slug hsome := by
    cases hfile : before.slice path m.slug slug "slice.md" with
    | none =>
      rw [h.others slug hfile, hfile] at hsome
      cases hsome
    | some file =>
      have hslice := hparses.slices slug (Option.isSome_of_eq_some hfile)
      obtain ⟨fields, shown, hown⟩ := hslice.own
      exact (h.slices ⟨slug, .pending⟩ fields shown hown).parses hslice

theorem reconcileMilestone_idle (hfewer : Fewer later execById) {found m : MilestoneData}
    (hslug : found.slug = m.slug)
    {before : PlanView} {progress : Progress}
    (hparses : MilestoneParses (before.slice path m.slug) (before (.milestoneMd path m.slug))
      m.slug)
    (hdone : MilestoneDone execById listed path m before progress.store.file)
    (hready : MilestoneReady path found progress.store.file) :
    reconcileMilestone later other path progress found = .ok progress := by
  have hsafe := hready.parses.safe
  have hown (slug : String) (file : MdFile)
      (hsome : progress.store.file (.inSlice path found.slug slug "slice.md") = some file) :
      SliceParses (PlanView.slice progress.store.file path found.slug slug) slug :=
    hready.parses.slices slug (Option.isSome_of_eq_some hsome)
  have hloads (slug : String) (file : MdFile)
      (hsome : progress.store.file (.inSlice path found.slug slug "slice.md") = some file) :
      ∃ fields shown, file = .parsed fields shown := by
    obtain ⟨fields, shown, hparsed⟩ := (hown slug file hsome).own
    exact ⟨fields, shown, Option.some.inj (hsome.symm.trans hparsed)⟩
  have hreads (slug : String) (file : MdFile)
      (hsome : progress.store.file (.inSlice path found.slug slug "slice.md") = some file) :
      ∃ slice, (file.read).bind (sliceFromFile slug) = .ok slice := by
    obtain ⟨fields, shown, rfl⟩ := hloads slug file hsome
    exact ⟨_, rfl⟩
  obtain ⟨slices, hslices, _, hmem⟩ := listSlices_spec progress.store path hsafe hreads
  have hidle (s : SliceData) (hs : s ∈ slices) :
      reconcileSlice later other path found.slug progress s = .ok progress := by
    obtain ⟨slug, file, hfile, hread⟩ := (hmem s).mp hs
    have hslice := hown slug file hfile
    obtain ⟨fields, shown, rfl⟩ := hloads slug file hfile
    cases hread
    have hreadySlice : SliceReady path found.slug ⟨slug, .ofField (fields "status")⟩
        progress.store.file := by
      refine ⟨hslice, ?_⟩
      intro written writtenShown hwritten
      cases hfile.symm.trans hwritten
      rfl
    rw [hslug] at hfile hreadySlice ⊢
    cases hbefore : before.slice path m.slug slug "slice.md" with
    | none =>
      have hkept := congrFun (hdone.others slug hbefore) "slice.md"
      rw [hbefore] at hkept
      cases hfile.symm.trans hkept
    | some file =>
      have hparsesSlice := hparses.slices slug (Option.isSome_of_eq_some hbefore)
      obtain ⟨fields', shown', hparsed⟩ := hparsesSlice.own
      exact reconcileSlice_idle hfewer rfl (hslug ▸ hsafe) hparsesSlice
        (hdone.slices ⟨slug, .ofField (fields "status")⟩ fields' shown' hparsed) hreadySlice
  obtain ⟨fields, shown, _, hbefore, _⟩ := hparses.own
  obtain ⟨written, writtenShown, _, hafter, _⟩ := hready.parses.own
  have hchecked := hdone.own fields shown hbefore
  rw [← hslug, hafter] at hchecked
  unfold reconcileMilestone
  rw [hslices]
  simp only [foldlM_eq_self hidle, bind, Except.bind, recheckMilestone, hslices]
  rw [if_neg]
  · rfl
  · rw [Bool.and_eq_true_iff, all_completed_iff_slicesCompleted
      (PlanView.slice progress.store.file path found.slug) hmem hloads, bne_iff_ne,
      not_and_not_right, hready.status written writtenShown hafter]
    exact status_of_recheckedMilestone hchecked.symm

/-- A project whose files parse still parses when it has been reconciled. -/
theorem ProjectDone.parses {before after : PlanView}
    (h : ProjectDone execById listed path before after) (hparses : ProjectParses before path) :
    ProjectParses after path := by
  intro slug hsome
  cases hfile : before (.milestoneMd path slug) with
  | none =>
    rw [(h.others slug hfile).1] at hsome
    cases hsome
  | some file =>
    have hmilestone := hparses slug (Option.isSome_of_eq_some hfile)
    obtain ⟨fields, shown, _, hown, _⟩ := hmilestone.own
    exact (h.milestones ⟨slug, none, none⟩ fields shown hown).parses hmilestone

/-- Reconciling a project again does nothing. -/
theorem reconcileProject_idle (hfewer : Fewer later execById) {before : PlanView} {progress : Progress}
    (hparses : ProjectParses before path)
    (hdone : ProjectDone execById listed path before progress.store.file) :
    reconcileProject later other progress path = .ok progress := by
  obtain ⟨milestones, hmilestones, _, hready, _⟩ :=
    listMilestones_of_parses (hdone.parses hparses)
  unfold reconcileProject
  rw [hmilestones]
  apply foldlM_eq_self
  intro m hm
  have hreadyMilestone := hready m hm
  cases hfile : before (.milestoneMd path m.slug) with
  | none =>
    obtain ⟨fields, shown, _, hown, _⟩ := hreadyMilestone.parses.own
    cases hown.symm.trans (hdone.others m.slug hfile).1
  | some file =>
    have hmilestone := hparses m.slug (Option.isSome_of_eq_some hfile)
    obtain ⟨fields, shown, _, hown, _⟩ := hmilestone.own
    exact reconcileMilestone_idle hfewer rfl hmilestone (hdone.milestones m fields shown hown)
      hreadyMilestone

end

end Flockctl.AutoExecutor
