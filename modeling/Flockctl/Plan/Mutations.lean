import Flockctl.Plan.Files

/-!
# What the functions of the plan store change

Every mutation that does not throw keeps healthy trees healthy and changes what is named at the
locations it is about only; for a write it is known what the location names afterwards.
-/

namespace Flockctl.Plan

open Collections

/-- A mutation that keeps trees healthy and changes the files of plan tasks in a region only. -/
structure ChangesOnly (region : PlanTaskLocation → Prop) (before after : PlanStore) : Prop where
  projects : after.projects = before.projects
  healthy : before.IsHealthy → after.IsHealthy
  files : ∀ location, ¬region location → location.taskSlug ≠ "slice" →
    fileAt after.plans location = fileAt before.plans location

namespace ChangesOnly

variable {region wider : PlanTaskLocation → Prop} {before after final : PlanStore}

theorem mono (h : ChangesOnly region before after) (hwider : ∀ location, region location →
    wider location) : ChangesOnly wider before after :=
  ⟨h.projects, h.healthy, fun location hlocation ↦
    h.files location fun hregion ↦ hlocation (hwider location hregion)⟩

theorem refl (store : PlanStore) : ChangesOnly region store store :=
  ⟨rfl, id, fun _ _ _ ↦ rfl⟩

theorem trans (h : ChangesOnly region before after) (h' : ChangesOnly region after final) :
    ChangesOnly region before final where
  projects := h'.projects.trans h.projects
  healthy hbefore := h'.healthy (h.healthy hbefore)
  files location hlocation hslice := by
    calc fileAt final.plans location
        = fileAt after.plans location := h'.files location hlocation hslice
      _ = fileAt before.plans location := h.files location hlocation hslice

/-- What is named outside the region stays named. -/
theorem others (h : ChangesOnly region before after) (location : PlanTaskLocation)
    (hlocation : ¬region location) : after.namedAt location = before.namedAt location := by
  unfold PlanStore.namedAt PlanStore.registered
  rw [h.projects]
  by_cases hslice : location.taskSlug = "slice"
  · have hnone (file : Option MdFile) : namedTask location.taskSlug file = none := by
      unfold namedTask
      split
      · exact if_pos hslice
      · rfl
    rw [hnone, hnone]
  · rw [h.files location hlocation hslice]

/-- A change of the tree of one project that keeps it healthy and keeps the files outside the
region. -/
theorem of_update (hprojects : after.projects = before.projects) {projectPath : String}
    {plan : PlanDir} (hplans : after.plans = Function.update before.plans projectPath plan)
    (hplan : Healthy (before.plans projectPath) → Healthy plan)
    (hfiles : ∀ location, ¬region location → location.taskSlug ≠ "slice" →
      fileAt after.plans location = fileAt before.plans location) :
    ChangesOnly region before after where
  projects := hprojects
  healthy hbefore path hpath := by
    have hregistered : before.registered path = true := by
      rw [PlanStore.registered, ← hprojects]
      exact hpath
    rw [hplans]
    by_cases hother : path = projectPath
    · subst hother
      rw [Function.update_self]
      exact hplan (hbefore path hregistered)
    · rw [Function.update_of_ne hother]
      exact hbefore path hregistered
  files := hfiles

end ChangesOnly

namespace PlanStore

@[simp] theorem projects_sync (store : PlanStore) (location : PlanTaskLocation)
    (id : Option YamlValue) :
    (store.syncExecutionIndexForTask location id).projects = store.projects := by
  unfold syncExecutionIndexForTask
  split
  · rfl
  · split <;> rfl

@[simp] theorem plans_sync (store : PlanStore) (location : PlanTaskLocation)
    (id : Option YamlValue) :
    (store.syncExecutionIndexForTask location id).plans = store.plans := by
  unfold syncExecutionIndexForTask
  split
  · rfl
  · split <;> rfl

@[simp] theorem projects_purge (store : PlanStore) (existing merged : Option YamlValue) :
    (store.purgeExecutionIndex existing merged).projects = store.projects := by
  unfold purgeExecutionIndex
  split
  · split <;> rfl
  · rfl

@[simp] theorem plans_purge (store : PlanStore) (existing merged : Option YamlValue) :
    (store.purgeExecutionIndex existing merged).plans = store.plans := by
  unfold purgeExecutionIndex
  split
  · split <;> rfl
  · rfl

theorem namedAt_of_fileAt_none {store : PlanStore} {location : PlanTaskLocation}
    (h : fileAt store.plans location = none) : store.namedAt location = none := by
  rw [namedAt, h]
  exact ite_self _

section

variable {before after : PlanStore} {location : PlanTaskLocation}

/-- Writing a file into a slice that exists. -/
theorem changesOnly_write {fields : Frontmatter} {listed : Bool}
    (hprojects : after.projects = before.projects)
    (hplans : after.plans = writeTaskFile before.plans location (.parsed fields listed))
    {name : String} {file : MdFile}
    (hslice : (sliceDir (before.plans location.projectPath) location.milestoneSlug
      location.sliceSlug).get name = some file) :
    ChangesOnly (· = location) before after := by
  obtain ⟨dir, files, hdir, hfiles, _⟩ := dirs_of_get_sliceDir hslice
  apply ChangesOnly.of_update hprojects hplans
  · intro hhealthy
    exact hhealthy.write hdir hfiles _ fields listed
  · intro other hother _
    rw [hplans, fileAt_writeTaskFile, if_neg hother]

/-- What a location names after a write to it. -/
theorem namedAt_write {file : MdFile} (hprojects : after.projects = before.projects)
    (hplans : after.plans = writeTaskFile before.plans location file) :
    after.namedAt location =
      if before.registered location.projectPath then namedTask location.taskSlug (some file)
      else none := by
  rw [namedAt, hplans, fileAt_writeTaskFile, if_pos rfl, registered, hprojects]
  rfl

theorem changesOnly_remove (hprojects : after.projects = before.projects)
    (hplans : after.plans = removeTaskFile before.plans location)
    (hslug : location.taskSlug ≠ "slice") {file : MdFile}
    (hfile : fileAt before.plans location = some file) :
    ChangesOnly (· = location) before after := by
  obtain ⟨dir, files, hdir, hfiles, _⟩ := dirs_of_get_sliceDir hfile
  apply ChangesOnly.of_update hprojects hplans
  · intro hhealthy
    apply hhealthy.remove hdir hfiles
    intro hname
    exact hslug (taskFileName_injective hname)
  · intro other hother _
    rw [hplans, fileAt_removeTaskFile, if_neg hother]

end

/-- The location of the plan task that `createPlanTask` creates. -/
def createdLocation (store : PlanStore) (projectPath milestoneSlug sliceSlug base : String) :
    PlanTaskLocation :=
  ⟨projectPath, milestoneSlug, sliceSlug,
    dedupeSlug (sliceDir (store.plans projectPath) milestoneSlug sliceSlug) base⟩

section

variable {store after : PlanStore}

section

variable {projectPath milestoneSlug sliceSlug base : String} {fields : Frontmatter} {listed : Bool}
  (h : store.createPlanTask projectPath milestoneSlug sliceSlug base fields listed = .ok after)

include h

/-- What `createPlanTask` does when it returns. -/
theorem createPlanTask_writes :
    (∃ file, (sliceDir (store.plans projectPath) milestoneSlug sliceSlug).get "slice.md" =
      some file) ∧ after.projects = store.projects ∧
    after.plans = writeTaskFile store.plans
      (store.createdLocation projectPath milestoneSlug sliceSlug base) (.parsed fields listed) := by
  obtain ⟨_, _, h⟩ := bind_eq_ok_iff.mp h
  obtain ⟨_, _, h⟩ := bind_eq_ok_iff.mp h
  dsimp only at h
  split at h
  · cases h
  · rename_i hslice
    have hafter := Except.ok.inj h
    refine ⟨?_, ?_, ?_⟩
    · apply Option.isSome_iff_exists.mp
      rwa [Option.isNone_iff_eq_none, ← Option.not_isSome_iff_eq_none, not_not] at hslice
    · rw [← hafter, projects_sync]
    · rw [← hafter, plans_sync]
      rfl

theorem createPlanTask_changes :
    ChangesOnly (· = store.createdLocation projectPath milestoneSlug sliceSlug base)
      store after := by
  obtain ⟨⟨file, hfile⟩, hprojects, hplans⟩ := createPlanTask_writes h
  apply changesOnly_write hprojects hplans
  exact hfile

end

/-- What `updatePlanTask` does when it returns. -/
theorem updatePlanTask_writes {location : PlanTaskLocation} {changes : Frontmatter} {listed : Bool}
    (h : store.updatePlanTask location changes listed = .ok after) :
    assertSafeLocation location = .ok () ∧ ∃ file existing,
      fileAt store.plans location = some file ∧ file.read = .ok existing ∧
      after.projects = store.projects ∧
      after.plans =
        writeTaskFile store.plans location (.parsed (existing.merge changes) listed) := by
  obtain ⟨_, hsafe, h⟩ := bind_eq_ok_iff.mp h
  obtain ⟨existing, hread, h⟩ := bind_eq_ok_iff.mp h
  unfold readPlanTask at hread
  cases hfile : fileAt store.plans location with
  | none => simp [hfile] at hread
  | some file =>
    rw [hfile] at hread
    cases h
    exact ⟨hsafe, file, existing, rfl, hread, by simp, by simp⟩

/-- `updatePlanTask` returns where the slugs are safe and the file can be read. -/
theorem updatePlanTask_returns {location : PlanTaskLocation}
    (hsafe : assertSafeLocation location = .ok ()) {fields : Frontmatter} {shown : Bool}
    (hfile : fileAt store.plans location = some (.parsed fields shown)) (changes : Frontmatter)
    (listed : Bool) : ∃ after, store.updatePlanTask location changes listed = .ok after := by
  have hread : store.readPlanTask location = .ok fields := by
    unfold readPlanTask
    rw [hfile]
    rfl
  unfold updatePlanTask
  rw [hsafe, hread]
  exact ⟨_, rfl⟩

theorem updatePlanTask_changes {location : PlanTaskLocation} {changes : Frontmatter}
    {listed : Bool} (h : store.updatePlanTask location changes listed = .ok after) :
    ChangesOnly (· = location) store after := by
  obtain ⟨_, file, existing, hfile, _, hprojects, hplans⟩ := updatePlanTask_writes h
  exact changesOnly_write hprojects hplans hfile

theorem deletePlanTask_changes {location : PlanTaskLocation} (hslug : location.taskSlug ≠ "slice")
    (h : store.deletePlanTask location = .ok after) : ChangesOnly (· = location) store after := by
  obtain ⟨_, _, h⟩ := bind_eq_ok_iff.mp h
  cases hfile : fileAt store.plans location with
  | none => simp [hfile] at h
  | some file =>
    have hremoved : after.projects = store.projects ∧
        after.plans = removeTaskFile store.plans location := by
      simp only [hfile] at h
      split at h
      · cases h
        exact ⟨rfl, rfl⟩
      · split at h <;> cases h <;> exact ⟨rfl, rfl⟩
    exact changesOnly_remove hremoved.1 hremoved.2 hslug hfile

/-- Deleting a slice leaves no plan task in it. -/
theorem deleteSlice_changes {projectPath milestoneSlug sliceSlug : String}
    (hslug : sliceSlug ≠ "milestone.md")
    (h : store.deleteSlice projectPath milestoneSlug sliceSlug = .ok after) :
    ChangesOnly (·.slice = (projectPath, milestoneSlug, sliceSlug)) store after ∧
      ∀ location, location.slice = (projectPath, milestoneSlug, sliceSlug) →
        after.namedAt location = none := by
  obtain ⟨_, _, h⟩ := bind_eq_ok_iff.mp h
  obtain ⟨_, _, h⟩ := bind_eq_ok_iff.mp h
  dsimp only at h
  split at h
  · rename_i hhas
    have hafter := Except.ok.inj h
    have hprojects : after.projects = store.projects := by rw [← hafter]
    have hplans : after.plans = Function.update store.plans projectPath
        ((store.plans projectPath).set milestoneSlug
          { milestoneDir (store.plans projectPath) milestoneSlug with
            slices := (milestoneDir (store.plans projectPath) milestoneSlug).slices.delete
              sliceSlug }) := by rw [← hafter]
    have hfiles (other : PlanTaskLocation) : fileAt after.plans other =
        if other.slice = (projectPath, milestoneSlug, sliceSlug) then none
        else fileAt store.plans other := by
      rw [hplans, fileAt_deleteSliceDir]
    obtain ⟨files, hget⟩ := (JsMap.has_eq_true_iff _ _).mp hhas
    obtain ⟨dir, hdir⟩ : ∃ dir, (store.plans projectPath).get milestoneSlug = some dir := by
      cases hdir : (store.plans projectPath).get milestoneSlug with
      | none => simp [milestoneDir, hdir] at hget
      | some dir => exact ⟨dir, rfl⟩
    constructor
    · apply ChangesOnly.of_update hprojects hplans
      · intro hhealthy
        rw [milestoneDir, hdir]
        exact hhealthy.deleteSlice hdir sliceSlug
      · intro other hother _
        rw [hfiles, if_neg hother]
    · intro location hlocation
      apply namedAt_of_fileAt_none
      rw [hfiles, if_pos hlocation]
  · rw [if_neg (fun hname ↦ hslug hname.1)] at h
    cases h

/-- Deleting a milestone leaves no plan task below it. -/
theorem deleteMilestone_changes {projectPath milestoneSlug : String}
    (h : store.deleteMilestone projectPath milestoneSlug = .ok after) :
    ChangesOnly (fun location ↦ location.projectPath = projectPath ∧
      location.milestoneSlug = milestoneSlug) store after ∧
      ∀ location : PlanTaskLocation, location.projectPath = projectPath ∧
        location.milestoneSlug = milestoneSlug → after.namedAt location = none := by
  obtain ⟨_, _, h⟩ := bind_eq_ok_iff.mp h
  dsimp only at h
  split at h
  · have hafter := Except.ok.inj h
    have hprojects : after.projects = store.projects := by rw [← hafter]
    have hplans : after.plans = Function.update store.plans projectPath
        ((store.plans projectPath).delete milestoneSlug) := by rw [← hafter]
    have hfiles (other : PlanTaskLocation) : fileAt after.plans other =
        if other.projectPath = projectPath ∧ other.milestoneSlug = milestoneSlug then none
        else fileAt store.plans other := by
      rw [hplans, fileAt_deleteMilestoneDir]
    constructor
    · apply ChangesOnly.of_update hprojects hplans
      · intro hhealthy
        exact hhealthy.deleteMilestone milestoneSlug
      · intro other hother _
        rw [hfiles, if_neg hother]
    · intro location hlocation
      apply namedAt_of_fileAt_none
      rw [hfiles, if_pos hlocation]
  · cases h

/-- Updating the file of a slice concerns no plan task. -/
theorem updateSlice_changes {projectPath milestoneSlug sliceSlug : String} {changes : Frontmatter}
    (h : store.updateSlice projectPath milestoneSlug sliceSlug changes = .ok after) :
    ChangesOnly (fun _ ↦ False) store after := by
  obtain ⟨_, _, h⟩ := bind_eq_ok_iff.mp h
  obtain ⟨_, _, h⟩ := bind_eq_ok_iff.mp h
  dsimp only at h
  cases hfile : fileAt store.plans ⟨projectPath, milestoneSlug, sliceSlug, "slice"⟩ with
  | none => simp [hfile] at h
  | some file =>
    rw [hfile] at h
    obtain ⟨existing, _, h⟩ := bind_eq_ok_iff.mp h
    have hafter := Except.ok.inj h
    have hprojects : after.projects = store.projects := by rw [← hafter]
    have hplans : after.plans = writeTaskFile store.plans
        ⟨projectPath, milestoneSlug, sliceSlug, "slice"⟩ (.parsed (existing.merge changes) true) := by
      rw [← hafter]
    obtain ⟨dir, files, hdir, hfiles, _⟩ := dirs_of_get_sliceDir hfile
    apply ChangesOnly.of_update hprojects hplans
    · intro hhealthy
      exact hhealthy.write hdir hfiles _ _ _
    · intro other _ hslice
      rw [hplans, fileAt_writeTaskFile, if_neg]
      rintro rfl
      exact hslice rfl

/-- Updating the file of a milestone does not either, if its mission id stays. -/
theorem updateMilestone_changes {projectPath milestoneSlug : String} {changes : Frontmatter}
    (hmission : changes "mission_id" = none)
    (h : store.updateMilestone projectPath milestoneSlug changes = .ok after) :
    ChangesOnly (fun _ ↦ False) store after := by
  obtain ⟨_, _, h⟩ := bind_eq_ok_iff.mp h
  dsimp only at h
  cases hfile : (milestoneDir (store.plans projectPath) milestoneSlug).milestoneMd with
  | none => simp [hfile] at h
  | some file =>
    simp only [hfile] at h
    obtain ⟨existing, hread, h⟩ := bind_eq_ok_iff.mp h
    obtain ⟨data, hdata, h⟩ := bind_eq_ok_iff.mp h
    have hafter := Except.ok.inj h
    have hprojects : after.projects = store.projects := by rw [← hafter]
    have hplans : after.plans = Function.update store.plans projectPath
        ((store.plans projectPath).set milestoneSlug
          { milestoneDir (store.plans projectPath) milestoneSlug with
            milestoneMd := some (.parsed (existing.merge changes) true) }) := by rw [← hafter]
    obtain ⟨dir, hdir⟩ : ∃ dir, (store.plans projectPath).get milestoneSlug = some dir := by
      cases hdir : (store.plans projectPath).get milestoneSlug with
      | none => simp [milestoneDir, hdir] at hfile
      | some dir => exact ⟨dir, rfl⟩
    have hdir' : milestoneDir (store.plans projectPath) milestoneSlug = dir := by
      rw [milestoneDir, hdir]
      rfl
    have hothers (other : PlanTaskLocation) :
        fileAt after.plans other = fileAt store.plans other := by
      rw [hplans, fileAt_setMilestoneMd]
    rw [hdir'] at hfile hplans
    have hkept : (existing.merge changes) "mission_id" = existing "mission_id" := by
      rw [Frontmatter.merge, hmission]
      rfl
    apply ChangesOnly.of_update hprojects hplans
    · intro hhealthy
      have hmilestone := hhealthy.milestone milestoneSlug dir hdir
      apply hhealthy.set { dir with milestoneMd := some (.parsed (existing.merge changes) true) }
        hmilestone.1 rfl
      · have hloads := hmilestone.2.2
        rw [MilestoneDir.loads, hfile, Option.all_some, hread] at hloads
        rw [MilestoneDir.loads, Option.all_some, MdFile.read]
        change (parseMissionId ((existing.merge changes) "mission_id")).isOk = true
        rw [hkept]
        exact hloads
      · exact hhealthy.slice milestoneSlug dir hdir
    · intro other _ _
      exact hothers other

theorem updateSlice_returns {projectPath milestoneSlug sliceSlug : String}
    (hmilestone : isSafePlanSlug milestoneSlug = true) (hslice : isSafePlanSlug sliceSlug = true)
    {files : SliceDir}
    (hfiles : sliceDir (store.plans projectPath) milestoneSlug sliceSlug = files)
    (hsome : (SliceDir.sliceMd files).isSome = true) (hloads : SliceDir.loads files = true)
    (changes : Frontmatter) :
    ∃ after, store.updateSlice projectPath milestoneSlug sliceSlug changes = .ok after := by
  obtain ⟨file, hfile⟩ := Option.isSome_iff_exists.mp hsome
  have hat : fileAt store.plans ⟨projectPath, milestoneSlug, sliceSlug, "slice"⟩ = some file := by
    rw [fileAt, hfiles]
    exact hfile
  rw [SliceDir.loads, hfile, Option.all_some] at hloads
  cases hread : file.read with
  | error error =>
    rw [hread] at hloads
    cases hloads
  | ok existing =>
    rw [updateSlice, (assertSafePlanSlug_eq_ok_iff _ _).mpr hmilestone,
      (assertSafePlanSlug_eq_ok_iff _ _).mpr hslice]
    dsimp only
    rw [hat]
    change ∃ after, (file.read >>= _) = Except.ok after
    rw [hread]
    exact ⟨_, rfl⟩

theorem updateMilestone_returns {projectPath milestoneSlug : String}
    (hsafe : isSafePlanSlug milestoneSlug = true)
    (hsome : (milestoneDir (store.plans projectPath) milestoneSlug).milestoneMd.isSome = true)
    (hloads : (milestoneDir (store.plans projectPath) milestoneSlug).loads = true)
    (changes : Frontmatter) :
    ∃ after, store.updateMilestone projectPath milestoneSlug changes = .ok after := by
  obtain ⟨file, hfile⟩ := Option.isSome_iff_exists.mp hsome
  obtain ⟨data, hdata⟩ := (MilestoneDir.loads_iff _ milestoneSlug).mp hloads file hfile
  obtain ⟨existing, hread, hparsed⟩ := bind_eq_ok_iff.mp hdata
  rw [updateMilestone, (assertSafePlanSlug_eq_ok_iff _ _).mpr hsafe]
  simp only [bind, Except.bind, hfile, hread, hparsed]
  exact ⟨_, rfl⟩

end

end PlanStore

end Flockctl.Plan
