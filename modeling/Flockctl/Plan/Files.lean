import Flockctl.Plan.Store

/-!
# The plan trees as a map from locations to files

Seen through `fileAt`, a plan tree is a partial map from locations to files, and each mutation of
the store changes it at one location or at the locations of one directory. In a healthy tree, in
which every directory has a safe name and a file that loads, this map says what the walk visits.
-/

namespace Flockctl.Plan

open Collections Ai

theorem toList_taskFileName (slug : String) :
    (taskFileName slug).toList = slug.toList ++ ['.', 'm', 'd'] := by
  rw [taskFileName, String.toList_append]
  rfl

theorem taskSlugOf_taskFileName (slug : String) : taskSlugOf (taskFileName slug) = slug := by
  rw [taskSlugOf, toList_taskFileName, List.length_append]
  simp

theorem taskFileName_injective : Function.Injective taskFileName := by
  intro slug other h
  rw [← taskSlugOf_taskFileName slug, h, taskSlugOf_taskFileName]

theorem taskFileName_taskSlugOf {name : String} (h : isTaskFileName name = true) :
    taskFileName (taskSlugOf name) = name := by
  obtain ⟨stem, hstem⟩ := List.isSuffixOf_iff_suffix.mp (Bool.and_eq_true_iff.mp h).1
  apply String.toList_injective
  rw [toList_taskFileName, taskSlugOf, ← hstem]
  simp

theorem isTaskFileName_taskFileName (slug : String) :
    isTaskFileName (taskFileName slug) = true ↔ slug ≠ "slice" := by
  have hsuffix : ['.', 'm', 'd'].isSuffixOf (taskFileName slug).toList = true := by
    rw [toList_taskFileName, List.isSuffixOf_iff_suffix]
    exact List.suffix_append _ _
  have hname : taskFileName slug = "slice.md" ↔ slug = "slice" :=
    taskFileName_injective.eq_iff (b := "slice")
  rw [isTaskFileName, hsuffix, Bool.true_and, bne_iff_ne, Ne, hname]

/-! ## What a mutation changes -/

theorem milestoneDir_withSlice (plan : PlanDir) (milestoneSlug sliceSlug : String)
    (change : SliceDir → SliceDir) (other : String) :
    milestoneDir (withSlice plan milestoneSlug sliceSlug change) other =
      if other = milestoneSlug then
        { milestoneDir plan milestoneSlug with
          slices := (milestoneDir plan milestoneSlug).slices.set sliceSlug
            (change (sliceDir plan milestoneSlug sliceSlug)) }
      else milestoneDir plan other := by
  rw [milestoneDir, withSlice, JsMap.get_set]
  split <;> rfl

theorem sliceDir_withSlice (plan : PlanDir) (milestoneSlug sliceSlug : String)
    (change : SliceDir → SliceDir) (otherMilestone otherSlice : String) :
    sliceDir (withSlice plan milestoneSlug sliceSlug change) otherMilestone otherSlice =
      if otherMilestone = milestoneSlug ∧ otherSlice = sliceSlug then
        change (sliceDir plan milestoneSlug sliceSlug)
      else sliceDir plan otherMilestone otherSlice := by
  rw [sliceDir, milestoneDir_withSlice]
  by_cases hmilestone : otherMilestone = milestoneSlug
  · subst hmilestone
    rw [if_pos rfl, JsMap.get_set]
    by_cases hslice : otherSlice = sliceSlug
    · simp [hslice]
    · simp [hslice, sliceDir]
  · simp [hmilestone, sliceDir]

/-- The slice a location is in. -/
def PlanTaskLocation.slice (location : PlanTaskLocation) : String × String × String :=
  (location.projectPath, location.milestoneSlug, location.sliceSlug)

theorem PlanTaskLocation.eq_iff (location other : PlanTaskLocation) :
    other = location ↔
      other.slice = location.slice ∧ taskFileName other.taskSlug = taskFileName location.taskSlug := by
  obtain ⟨path, milestoneSlug, sliceSlug, taskSlug⟩ := location
  obtain ⟨otherPath, otherMilestone, otherSlice, otherTask⟩ := other
  simp [PlanTaskLocation.slice, taskFileName_injective.eq_iff, and_assoc]

theorem fileAt_of_slice_eq (plans : FileSystem) {location other : PlanTaskLocation}
    (h : other.slice = location.slice) :
    fileAt plans other =
      (sliceDir (plans location.projectPath) location.milestoneSlug location.sliceSlug).get
        (taskFileName other.taskSlug) := by
  simp only [PlanTaskLocation.slice, Prod.mk.injEq] at h
  rw [fileAt, h.1, h.2.1, h.2.2]

theorem fileAt_changeSlice (plans : FileSystem) (location : PlanTaskLocation)
    (change : SliceDir → SliceDir) (other : PlanTaskLocation) :
    fileAt (changeSlice plans location change) other =
      if other.slice = location.slice then
        (change (sliceDir (plans location.projectPath) location.milestoneSlug
          location.sliceSlug)).get (taskFileName other.taskSlug)
      else fileAt plans other := by
  obtain ⟨otherPath, otherMilestone, otherSlice, otherTask⟩ := other
  simp only [fileAt, changeSlice, PlanTaskLocation.slice, Prod.mk.injEq]
  by_cases hpath : otherPath = location.projectPath
  · subst hpath
    rw [Function.update_self, sliceDir_withSlice]
    simp only [true_and]
    split <;> rfl
  · rw [Function.update_of_ne hpath]
    simp [hpath]

theorem fileAt_writeTaskFile (plans : FileSystem) (location : PlanTaskLocation) (file : MdFile)
    (other : PlanTaskLocation) :
    fileAt (writeTaskFile plans location file) other =
      if other = location then some file else fileAt plans other := by
  simp only [writeTaskFile, fileAt_changeSlice, JsMap.get_set, PlanTaskLocation.eq_iff location]
  by_cases hslice : other.slice = location.slice
  · simp [hslice, fileAt_of_slice_eq plans hslice]
  · simp [hslice]

theorem fileAt_removeTaskFile (plans : FileSystem) (location other : PlanTaskLocation) :
    fileAt (removeTaskFile plans location) other =
      if other = location then none else fileAt plans other := by
  simp only [removeTaskFile, fileAt_changeSlice, JsMap.get_delete,
    PlanTaskLocation.eq_iff location]
  by_cases hslice : other.slice = location.slice
  · simp [hslice, fileAt_of_slice_eq plans hslice]
  · simp [hslice]

/-- Deleting a slice leaves nothing at its locations and every other file in place. -/
theorem fileAt_deleteSliceDir (plans : FileSystem)
    (projectPath milestoneSlug sliceSlug : String) (other : PlanTaskLocation) :
    fileAt (Function.update plans projectPath ((plans projectPath).set milestoneSlug
        { milestoneDir (plans projectPath) milestoneSlug with
          slices := (milestoneDir (plans projectPath) milestoneSlug).slices.delete sliceSlug }))
        other =
      if other.slice = (projectPath, milestoneSlug, sliceSlug) then none
      else fileAt plans other := by
  obtain ⟨otherPath, otherMilestone, otherSlice, otherTask⟩ := other
  simp only [fileAt, PlanTaskLocation.slice, Prod.mk.injEq]
  by_cases hpath : otherPath = projectPath
  · subst hpath
    rw [Function.update_self]
    by_cases hmilestone : otherMilestone = milestoneSlug
    · subst hmilestone
      by_cases hslice : otherSlice = sliceSlug
      · simp [sliceDir, milestoneDir, hslice]
      · simp [sliceDir, milestoneDir, hslice, JsMap.get_delete]
    · simp [sliceDir, milestoneDir, hmilestone, JsMap.get_set]
  · rw [Function.update_of_ne hpath]
    simp [hpath]

/-- Deleting a milestone does so for the locations below it. -/
theorem fileAt_deleteMilestoneDir (plans : FileSystem) (projectPath milestoneSlug : String)
    (other : PlanTaskLocation) :
    fileAt (Function.update plans projectPath ((plans projectPath).delete milestoneSlug)) other =
      if other.projectPath = projectPath ∧ other.milestoneSlug = milestoneSlug then none
      else fileAt plans other := by
  obtain ⟨otherPath, otherMilestone, otherSlice, otherTask⟩ := other
  simp only [fileAt]
  by_cases hpath : otherPath = projectPath
  · subst hpath
    rw [Function.update_self]
    by_cases hmilestone : otherMilestone = milestoneSlug
    · simp [sliceDir, milestoneDir, hmilestone]
    · simp [sliceDir, milestoneDir, hmilestone, JsMap.get_delete]
  · rw [Function.update_of_ne hpath]
    simp [hpath]

/-- The file of a milestone stands beside the files of its slices. -/
theorem fileAt_setMilestoneMd (plans : FileSystem) (projectPath milestoneSlug : String)
    (file : Option MdFile) (other : PlanTaskLocation) :
    fileAt (Function.update plans projectPath ((plans projectPath).set milestoneSlug
        { milestoneDir (plans projectPath) milestoneSlug with milestoneMd := file })) other =
      fileAt plans other := by
  obtain ⟨otherPath, otherMilestone, otherSlice, otherTask⟩ := other
  simp only [fileAt]
  by_cases hpath : otherPath = projectPath
  · subst hpath
    rw [Function.update_self]
    by_cases hmilestone : otherMilestone = milestoneSlug
    · simp [sliceDir, milestoneDir, hmilestone]
    · simp [sliceDir, milestoneDir, hmilestone, JsMap.get_set]
  · rw [Function.update_of_ne hpath]

/-! ## Healthy trees -/

/-- Every directory has a safe name and a file of its own that loads. -/
structure Healthy (plan : PlanDir) : Prop where
  milestone : ∀ slug dir, plan.get slug = some dir →
    isSafePlanSlug slug = true ∧ dir.milestoneMd.isSome = true ∧ dir.loads = true
  slice : ∀ slug dir, plan.get slug = some dir → ∀ sliceSlug files,
    dir.slices.get sliceSlug = some files → isSafePlanSlug sliceSlug = true ∧
      (SliceDir.sliceMd files).isSome = true ∧ SliceDir.loads files = true

namespace Healthy

variable {plan : PlanDir}

theorem accessible (h : Healthy plan) {milestoneSlug sliceSlug : String} {dir : MilestoneDir}
    {files : SliceDir} (hdir : plan.get milestoneSlug = some dir)
    (hfiles : dir.slices.get sliceSlug = some files) :
    Accessible plan milestoneSlug sliceSlug where
  milestones slug other hother := (h.milestone slug other hother).2.2
  milestoneSafe := (h.milestone milestoneSlug dir hdir).1
  slices slug other hother := by
    rw [milestoneDir, hdir] at hother
    exact (h.slice milestoneSlug dir hdir slug other hother).2.2
  sliceSafe := (h.slice milestoneSlug dir hdir sliceSlug files hfiles).1

theorem listMilestones_returns (h : Healthy plan) :
    ∃ milestones, listMilestones plan = .ok milestones := by
  apply (listDirs_returns_iff plan).mpr
  intro slug dir hdir
  exact (dir.loads_iff slug).mp (h.milestone slug dir hdir).2.2

theorem listSlices_returns (h : Healthy plan) {milestoneSlug : String}
    (hsafe : isSafePlanSlug milestoneSlug = true) :
    ∃ slices, listSlices plan milestoneSlug = .ok slices := by
  rw [listSlices, (assertSafePlanSlug_eq_ok_iff _ _).mpr hsafe]
  apply (listDirs_returns_iff _).mpr
  intro slug files hfiles
  apply (SliceDir.loads_iff files slug).mp
  cases hdir : plan.get milestoneSlug with
  | none => simp [milestoneDir, hdir] at hfiles
  | some dir =>
    rw [milestoneDir, hdir] at hfiles
    exact (h.slice milestoneSlug dir hdir slug files hfiles).2.2

/-- Replacing the directory of a healthy milestone by one that is healthy as well. -/
theorem set (h : Healthy plan) {slug : String} (dir : MilestoneDir)
    (hsafe : isSafePlanSlug slug = true) (hfile : dir.milestoneMd.isSome = true)
    (hloads : dir.loads = true)
    (hslices : ∀ sliceSlug files, dir.slices.get sliceSlug = some files →
      isSafePlanSlug sliceSlug = true ∧ (SliceDir.sliceMd files).isSome = true ∧
        SliceDir.loads files = true) : Healthy (JsMap.set plan slug dir) where
  milestone other found hfound := by
    rw [JsMap.get_set] at hfound
    split at hfound
    · rename_i hother
      cases hfound
      exact ⟨hother ▸ hsafe, hfile, hloads⟩
    · exact h.milestone other found hfound
  slice other found hfound := by
    rw [JsMap.get_set] at hfound
    split at hfound
    · cases hfound
      exact hslices
    · exact h.slice other found hfound

theorem withSlice (h : Healthy plan) {milestoneSlug sliceSlug : String} {dir : MilestoneDir}
    {files : SliceDir} (hdir : plan.get milestoneSlug = some dir)
    (hfiles : dir.slices.get sliceSlug = some files) {change : SliceDir → SliceDir}
    (hfile : (SliceDir.sliceMd (change files)).isSome = true)
    (hloads : SliceDir.loads (change files) = true) :
    Healthy (withSlice plan milestoneSlug sliceSlug change) := by
  have hmilestone := h.milestone milestoneSlug dir hdir
  have hslices := h.slice milestoneSlug dir hdir
  have hdir' : milestoneDir plan milestoneSlug = dir := by
    rw [milestoneDir, hdir]
    rfl
  have hfiles' : sliceDir plan milestoneSlug sliceSlug = files := by
    rw [sliceDir, hdir', hfiles]
    rfl
  rw [Plan.withSlice, hfiles', hdir']
  apply h.set { dir with slices := dir.slices.set sliceSlug (change files) } hmilestone.1
    hmilestone.2.1 hmilestone.2.2
  intro other found hfound
  rw [JsMap.get_set] at hfound
  split at hfound
  · rename_i hother
    cases hfound
    exact ⟨hother ▸ (hslices sliceSlug files hfiles).1, hfile, hloads⟩
  · exact hslices other found hfound

/-- Writing a task file, or the file of the slice, keeps a tree healthy. -/
theorem write (h : Healthy plan) {milestoneSlug sliceSlug : String} {dir : MilestoneDir}
    {files : SliceDir} (hdir : plan.get milestoneSlug = some dir)
    (hfiles : dir.slices.get sliceSlug = some files) (name : String) (fields : Frontmatter)
    (listed : Bool) :
    Healthy (Plan.withSlice plan milestoneSlug sliceSlug (·.set name (.parsed fields listed))) := by
  have hslice := h.slice milestoneSlug dir hdir sliceSlug files hfiles
  have hmd : SliceDir.sliceMd (files.set name (.parsed fields listed)) =
      if "slice.md" = name then some (.parsed fields listed) else SliceDir.sliceMd files :=
    JsMap.get_set _ _ _ _
  apply h.withSlice hdir hfiles
  · rw [hmd]
    split
    · rfl
    · exact hslice.2.1
  · rw [SliceDir.loads, hmd]
    split
    · rfl
    · exact hslice.2.2

/-- Removing a file other than that of the slice keeps a tree healthy. -/
theorem remove (h : Healthy plan) {milestoneSlug sliceSlug : String} {dir : MilestoneDir}
    {files : SliceDir} (hdir : plan.get milestoneSlug = some dir)
    (hfiles : dir.slices.get sliceSlug = some files) {name : String} (hname : name ≠ "slice.md") :
    Healthy (Plan.withSlice plan milestoneSlug sliceSlug (·.delete name)) := by
  have hslice := h.slice milestoneSlug dir hdir sliceSlug files hfiles
  have hmd : SliceDir.sliceMd (files.delete name) = SliceDir.sliceMd files :=
    JsMap.get_delete_of_ne _ hname.symm
  apply h.withSlice hdir hfiles
  · rw [hmd]
    exact hslice.2.1
  · rw [SliceDir.loads, hmd]
    exact hslice.2.2

theorem deleteSlice (h : Healthy plan) {milestoneSlug : String} {dir : MilestoneDir}
    (hdir : plan.get milestoneSlug = some dir) (sliceSlug : String) :
    Healthy (JsMap.set plan milestoneSlug { dir with slices := dir.slices.delete sliceSlug }) := by
  have hmilestone := h.milestone milestoneSlug dir hdir
  apply h.set { dir with slices := dir.slices.delete sliceSlug } hmilestone.1 hmilestone.2.1
    hmilestone.2.2
  intro other found hfound
  exact h.slice milestoneSlug dir hdir other found (JsMap.get_delete_eq_some_iff.mp hfound).2

theorem deleteMilestone (h : Healthy plan) (milestoneSlug : String) :
    Healthy (JsMap.delete plan milestoneSlug) where
  milestone other found hfound :=
    h.milestone other found (JsMap.get_delete_eq_some_iff.mp hfound).2
  slice other found hfound :=
    h.slice other found (JsMap.get_delete_eq_some_iff.mp hfound).2

end Healthy

/-- A file stands in existing directories. -/
theorem dirs_of_get_sliceDir {plan : PlanDir} {milestoneSlug sliceSlug name : String}
    {file : MdFile} (h : (sliceDir plan milestoneSlug sliceSlug).get name = some file) :
    ∃ dir files, plan.get milestoneSlug = some dir ∧ dir.slices.get sliceSlug = some files ∧
      sliceDir plan milestoneSlug sliceSlug = files := by
  unfold sliceDir milestoneDir at h ⊢
  cases hdir : plan.get milestoneSlug with
  | none => simp [hdir, JsMap.get_empty] at h
  | some dir =>
    cases hfiles : dir.slices.get sliceSlug with
    | none => simp [hdir, hfiles] at h
    | some files => exact ⟨dir, files, rfl, hfiles, by simp [hfiles]⟩

/-! ## What a store names -/

/-- The execution id by which a file names a task, where the file counts as a plan task. -/
def namedTask (taskSlug : String) : Option MdFile → Option ℕ
  | some (.parsed fm true) =>
    if taskSlug = "slice" then none
    else
      match fm "execution_task_id" with
      | some (.number (.ofNat id)) => some id
      | _ => none
  | _ => none

theorem namedTask_eq_some_iff (taskSlug : String) (file : Option MdFile) (id : ℕ) :
    namedTask taskSlug file = some id ↔ taskSlug ≠ "slice" ∧
      ∃ fm, file = some (.parsed fm true) ∧ fm "execution_task_id" = some (.number id) := by
  unfold namedTask
  split
  · rename_i fm
    by_cases hslice : taskSlug = "slice"
    · simp [hslice]
    · rw [if_neg hslice]
      split
      · rename_i other hfield
        simp only [Option.some.injEq, ne_eq, hslice, not_false_eq_true, true_and,
          MdFile.parsed.injEq, and_true, exists_eq_left', hfield, YamlValue.number.injEq,
          Int.ofNat_eq_natCast, Int.natCast_inj]
      · rename_i hfield
        simp only [reduceCtorEq, false_iff, not_and, not_exists]
        rintro _ fm' hfm hid
        cases hfm
        exact hfield id hid
  · rename_i hfile
    simp only [reduceCtorEq, false_iff, not_and, not_exists]
    rintro _ fm rfl
    exact absurd rfl (hfile fm)

namespace PlanStore

def registered (store : PlanStore) (projectPath : String) : Bool :=
  store.projects.any fun project ↦ project.root == some projectPath

/-- The task the plan task at a location names. -/
def namedAt (store : PlanStore) (location : PlanTaskLocation) : Option ℕ :=
  if store.registered location.projectPath then
    namedTask location.taskSlug (fileAt store.plans location)
  else none

/-- The plan trees of all registered projects are healthy. -/
def IsHealthy (store : PlanStore) : Prop :=
  ∀ path, store.registered path = true → Healthy (store.plans path)

theorem registered_iff (store : PlanStore) (projectPath : String) :
    store.registered projectPath = true ↔
      ∃ project ∈ store.projects, project.root = some projectPath := by
  simp [registered, List.any_eq_true]

theorem namedAt_eq_some_iff (store : PlanStore) (location : PlanTaskLocation) (id : ℕ) :
    store.namedAt location = some id ↔ store.registered location.projectPath = true ∧
      location.taskSlug ≠ "slice" ∧ ∃ fm, fileAt store.plans location = some (.parsed fm true) ∧
        fm "execution_task_id" = some (.number id) := by
  unfold namedAt
  split
  · rename_i hregistered
    rw [and_iff_right hregistered]
    exact namedTask_eq_some_iff _ _ _
  · rename_i hregistered
    simp [hregistered]

/-- In healthy trees the walk finds a task at the locations that name it. -/
theorem visited_iff_namedAt {store : PlanStore} (h : store.IsHealthy)
    (location : PlanTaskLocation) (id : ℕ) :
    (∃ visit ∈ walkPlanTasks store.projects store.plans, visit.location = location ∧
      visit.task.pointsAt id = true) ↔ store.namedAt location = some id := by
  rw [namedAt_eq_some_iff, registered_iff]
  constructor
  · rintro ⟨visit, hvisit, rfl, hpoints⟩
    obtain ⟨project, hproject, path, hroot, hwalked⟩ :=
      (mem_walkPlanTasks_iff _ _ visit).mp hvisit
    obtain ⟨_, hpath, hslug, _, hholds⟩ := (mem_walkPlan_iff _ _ _ visit).mp hwalked
    obtain ⟨name, fm, hname, hfile, htask⟩ := hholds.file
    have htaskSlug : taskFileName visit.location.taskSlug = name := by
      rw [hslug, htask]
      exact taskFileName_taskSlugOf hname
    refine ⟨⟨project, hproject, by rw [hpath, hroot]⟩, ?_, fm, ?_, ?_⟩
    · apply (isTaskFileName_taskFileName _).mp
      rw [htaskSlug, hname]
    · rw [fileAt, hpath, htaskSlug, hfile]
    · rw [htask] at hpoints
      exact beq_iff_eq.mp hpoints
  · rintro ⟨⟨project, hproject, hroot⟩, hslice, fm, hfile, hid⟩
    have hhealthy := h location.projectPath
      ((registered_iff store _).mpr ⟨project, hproject, hroot⟩)
    obtain ⟨dir, files, hdir, hfiles, hsliceDir⟩ := dirs_of_get_sliceDir hfile
    have hmilestone := hhealthy.milestone _ dir hdir
    have hfilesHealthy := hhealthy.slice _ dir hdir _ files hfiles
    let task := taskFromFile (taskSlugOf (taskFileName location.taskSlug)) fm
    have htask : task.slug = location.taskSlug := taskSlugOf_taskFileName _
    have hholds : HoldsTask (store.plans location.projectPath) location.milestoneSlug
        location.sliceSlug task := by
      refine ⟨?_, ?_, taskFileName location.taskSlug, fm, ?_, hfile, rfl⟩
      · rw [hdir]
        exact hmilestone.2.1
      · rw [milestoneDir, hdir, Option.getD_some, hfiles]
        exact hfilesHealthy.2.1
      · exact (isTaskFileName_taskFileName _).mpr hslice
    refine ⟨⟨project.id, location, task⟩, ?_, rfl, ?_⟩
    · apply (mem_walkPlanTasks_iff _ _ _).mpr
      refine ⟨project, hproject, location.projectPath, hroot, ?_⟩
      exact (mem_walkPlan_iff _ _ _ _).mpr
        ⟨rfl, rfl, htask.symm, hhealthy.accessible hdir hfiles, hholds⟩
    · exact beq_iff_eq.mpr hid

end PlanStore

end Flockctl.Plan
