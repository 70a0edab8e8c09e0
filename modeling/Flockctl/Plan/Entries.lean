import Flockctl.Plan.Mutations

/-!
# All files of the plan trees

A plan tree has the files of its milestones and the files in the directories of its slices, among
these the files of the slices themselves. What the listing functions return depends on these files
only, and each update writes one of them.
-/

namespace Flockctl.Plan

open Collections

/-- A file in the plan tree of a project. -/
inductive PlanFile
  | milestoneMd (projectPath milestoneSlug : String)
  | inSlice (projectPath milestoneSlug sliceSlug name : String)
  deriving DecidableEq, Repr

namespace PlanFile

def projectPath : PlanFile → String
  | milestoneMd path _ | inSlice path _ _ _ => path

/-- The file of a plan task. -/
def ofTask (location : PlanTaskLocation) : PlanFile :=
  inSlice location.projectPath location.milestoneSlug location.sliceSlug
    (taskFileName location.taskSlug)

end PlanFile

/-- What stands in the files of the plan trees. -/
abbrev PlanView := PlanFile → Option MdFile

/-- The content of a file. -/
def PlanStore.file (store : PlanStore) : PlanView
  | .milestoneMd path milestoneSlug => ((store.plans path).get milestoneSlug).bind (·.milestoneMd)
  | .inSlice path milestoneSlug sliceSlug name =>
      (sliceDir (store.plans path) milestoneSlug sliceSlug).get name

theorem milestoneMd_withSlice (plan : PlanDir) (milestoneSlug sliceSlug : String)
    (change : SliceDir → SliceDir) (other : String) :
    ((withSlice plan milestoneSlug sliceSlug change).get other).bind (·.milestoneMd) =
      (plan.get other).bind (·.milestoneMd) := by
  rw [withSlice, JsMap.get_set]
  split
  · rename_i hother
    subst hother
    rw [milestoneDir]
    cases plan.get other <;> rfl
  · rfl

theorem milestoneMd_of_milestoneDir (plan : PlanDir) (milestoneSlug : String) :
    (milestoneDir plan milestoneSlug).milestoneMd =
      (plan.get milestoneSlug).bind (·.milestoneMd) := by
  rw [milestoneDir]
  cases plan.get milestoneSlug <;> rfl

namespace PlanStore

/-- A write to a file in a slice directory changes that file only. -/
theorem file_of_writeTaskFile {store after : PlanStore} {location : PlanTaskLocation} {file : MdFile}
    (hplans : after.plans = writeTaskFile store.plans location file) :
    after.file = Function.update store.file (.ofTask location) (some file) := by
  funext other
  rw [Function.update_apply]
  have hupdate : after.plans = Function.update store.plans location.projectPath
      (withSlice (store.plans location.projectPath) location.milestoneSlug location.sliceSlug
        (·.set (taskFileName location.taskSlug) file)) := hplans
  cases other with
  | milestoneMd path milestoneSlug =>
    rw [if_neg (by simp [PlanFile.ofTask]), PlanStore.file, PlanStore.file, hupdate]
    by_cases hpath : path = location.projectPath
    · rw [hpath, Function.update_self]
      exact milestoneMd_withSlice _ _ _ _ _
    · rw [Function.update_of_ne hpath]
  | inSlice path milestoneSlug sliceSlug name =>
    rw [PlanStore.file, PlanStore.file, hupdate]
    by_cases hpath : path = location.projectPath
    · rw [hpath, Function.update_self, sliceDir_withSlice]
      by_cases hdirs : milestoneSlug = location.milestoneSlug ∧ sliceSlug = location.sliceSlug
      · rw [if_pos hdirs, JsMap.get_set, hdirs.1, hdirs.2]
        simp [PlanFile.ofTask]
      · rw [if_neg hdirs, if_neg]
        simp only [PlanFile.ofTask, PlanFile.inSlice.injEq]
        exact fun h ↦ hdirs ⟨h.2.1, h.2.2.1⟩
    · rw [Function.update_of_ne hpath, if_neg]
      simp only [PlanFile.ofTask, PlanFile.inSlice.injEq]
      exact fun h ↦ hpath h.1

theorem file_of_setMilestoneMd {store after : PlanStore} {path milestoneSlug : String}
    {file : MdFile}
    (hplans : after.plans = Function.update store.plans path ((store.plans path).set milestoneSlug
      { milestoneDir (store.plans path) milestoneSlug with milestoneMd := some file })) :
    after.file = Function.update store.file (.milestoneMd path milestoneSlug) (some file) := by
  funext other
  rw [Function.update_apply]
  cases other with
  | milestoneMd otherPath otherSlug =>
    rw [PlanStore.file, PlanStore.file, hplans]
    by_cases hpath : otherPath = path
    · rw [hpath, Function.update_self, JsMap.get_set]
      by_cases hslug : otherSlug = milestoneSlug <;> simp [hslug]
    · simp [hpath]
  | inSlice otherPath otherSlug sliceSlug name =>
    rw [if_neg (by simp), PlanStore.file, PlanStore.file, hplans]
    by_cases hpath : otherPath = path
    · rw [hpath, Function.update_self, sliceDir, sliceDir]
      congr 2
      by_cases hslug : otherSlug = milestoneSlug
      · simp [hslug, milestoneDir]
      · simp [hslug, milestoneDir, JsMap.get_set]
    · rw [Function.update_of_ne hpath]

/-- `updatePlanTask` on a plan task that can be read. -/
theorem updatePlanTask_file {store : PlanStore} {location : PlanTaskLocation}
    (hmilestone : isSafePlanSlug location.milestoneSlug = true)
    (hslice : isSafePlanSlug location.sliceSlug = true)
    (htask : isSafePlanSlug location.taskSlug = true) {fields : Frontmatter} {shown : Bool}
    (hfile : store.file (.ofTask location) = some (.parsed fields shown)) (changes : Frontmatter)
    (listed : Bool) :
    ∃ after, store.updatePlanTask location changes listed = .ok after ∧
      after.projects = store.projects ∧
      after.file = Function.update store.file (.ofTask location)
        (some (.parsed (fields.merge changes) listed)) := by
  have hsafe : assertSafeLocation location = .ok () := by
    rw [assertSafeLocation, (assertSafePlanSlug_eq_ok_iff _ _).mpr hmilestone,
      (assertSafePlanSlug_eq_ok_iff _ _).mpr hslice, (assertSafePlanSlug_eq_ok_iff _ _).mpr htask]
    rfl
  obtain ⟨after, hafter⟩ := updatePlanTask_returns hsafe hfile changes listed
  obtain ⟨_, file, existing, hread, hexisting, hprojects, hplans⟩ := updatePlanTask_writes hafter
  have hsame : some file = some (MdFile.parsed fields shown) := by
    rw [← hread]
    exact hfile
  cases hsame
  cases hexisting
  exact ⟨after, hafter, hprojects, file_of_writeTaskFile hplans⟩

/-- `updateSlice` on a slice whose file can be read. -/
theorem updateSlice_file {store : PlanStore} {path milestoneSlug sliceSlug : String}
    (hmilestone : isSafePlanSlug milestoneSlug = true) (hslice : isSafePlanSlug sliceSlug = true)
    {fields : Frontmatter} {shown : Bool}
    (hfile : store.file (.inSlice path milestoneSlug sliceSlug "slice.md") =
      some (.parsed fields shown)) (changes : Frontmatter) :
    ∃ after, store.updateSlice path milestoneSlug sliceSlug changes = .ok after ∧
      after.projects = store.projects ∧
      after.file = Function.update store.file (.inSlice path milestoneSlug sliceSlug "slice.md")
        (some (.parsed (fields.merge changes) true)) := by
  have hat : fileAt store.plans ⟨path, milestoneSlug, sliceSlug, "slice"⟩ =
      some (.parsed fields shown) := hfile
  unfold updateSlice
  rw [(assertSafePlanSlug_eq_ok_iff _ _).mpr hmilestone,
    (assertSafePlanSlug_eq_ok_iff _ _).mpr hslice]
  dsimp only
  rw [hat]
  refine ⟨_, rfl, rfl, ?_⟩
  exact @file_of_writeTaskFile store _ ⟨path, milestoneSlug, sliceSlug, "slice"⟩ _ rfl

/-- `updateMilestone` on a milestone whose file the reader accepts. -/
theorem updateMilestone_file {store : PlanStore} {path milestoneSlug : String}
    (hsafe : isSafePlanSlug milestoneSlug = true) {fields : Frontmatter} {shown : Bool}
    (hfile : store.file (.milestoneMd path milestoneSlug) = some (.parsed fields shown))
    {missionId : Option String} (hmission : parseMissionId (fields "mission_id") = .ok missionId)
    (changes : Frontmatter) :
    ∃ after, store.updateMilestone path milestoneSlug changes = .ok after ∧
      after.projects = store.projects ∧
      after.file = Function.update store.file (.milestoneMd path milestoneSlug)
        (some (.parsed (fields.merge changes) true)) := by
  have hdir : (milestoneDir (store.plans path) milestoneSlug).milestoneMd =
      some (.parsed fields shown) := by
    rw [milestoneMd_of_milestoneDir]
    exact hfile
  unfold updateMilestone
  rw [(assertSafePlanSlug_eq_ok_iff _ _).mpr hsafe]
  dsimp only
  simp only [hdir]
  simp only [MdFile.read, milestoneFromFile, hmission, bind, Except.bind, pure, Except.pure]
  exact ⟨_, rfl, rfl, file_of_setMilestoneMd rfl⟩

end PlanStore

theorem nodup_sortedDirs {Dir : Type} (parent : JsMap String Dir) : (sortedDirs parent).Nodup :=
  (List.perm_insertionSort _ _).nodup_iff.mpr parent.nodup

/-- The file of a slice. -/
theorem PlanStore.file_sliceMd (store : PlanStore) (path milestoneSlug sliceSlug : String) :
    store.file (.inSlice path milestoneSlug sliceSlug "slice.md") =
      ((milestoneDir (store.plans path) milestoneSlug).slices.get sliceSlug).bind
        SliceDir.sliceMd := by
  rw [PlanStore.file, sliceDir]
  cases (milestoneDir (store.plans path) milestoneSlug).slices.get sliceSlug with
  | none => exact JsMap.get_empty _
  | some files => rfl

/-- A listing of directories returns the records of those that have their own file, each once,
where all of these load. -/
theorem listDirs_spec {Dir Record : Type} {own : Dir → Option MdFile}
    {fromFile : String → Frontmatter → Except String Record} {slugOf : Record → String}
    (hslug : ∀ slug fm record, fromFile slug fm = .ok record → slugOf record = slug)
    {parent : JsMap String Dir}
    (hloads : ∀ slug file, (parent.get slug).bind own = some file →
      ∃ record, (file.read).bind (fromFile slug) = .ok record) :
    ∃ records, listDirs own fromFile parent = .ok records ∧ (records.map slugOf).Nodup ∧
      ∀ record, record ∈ records ↔ ∃ slug file, (parent.get slug).bind own = some file ∧
        (file.read).bind (fromFile slug) = .ok record := by
  have hentry (slug : String) (record : Record) :
      dirEntry own fromFile parent slug = .ok (some record) ↔
        ∃ file, (parent.get slug).bind own = some file ∧
          (file.read).bind (fromFile slug) = .ok record := by
    cases hown : (parent.get slug).bind own with
    | none => simp [dirEntry, hown]
    | some file =>
      cases hread : (file.read).bind (fromFile slug) <;> simp [dirEntry, hown, hread, Except.map]
  have hreturns : ∃ records, listDirs own fromFile parent = .ok records := by
    apply (listDirs_returns_iff parent).mpr
    intro slug dir hdir file hown
    apply hloads slug file
    rw [hdir, Option.bind_some, hown]
  obtain ⟨records, hrecords⟩ := hreturns
  refine ⟨records, hrecords, ?_, ?_⟩
  · have hsublist : (records.map slugOf).Sublist ((sortedDirs parent).map id) := by
      apply keys_sublist_of_mapM _ hrecords
      intro slug record hfound
      obtain ⟨file, _, hread⟩ := (hentry slug record).mp hfound
      exact slugOf_of_read hslug hread
    rw [List.map_id] at hsublist
    exact (nodup_sortedDirs parent).sublist hsublist
  · intro record
    rw [mem_reduceOption_of_mapM_ok hrecords]
    simp only [hentry]
    constructor
    · rintro ⟨slug, _, file, hfile⟩
      exact ⟨slug, file, hfile⟩
    · rintro ⟨slug, file, hown, hread⟩
      obtain ⟨dir, hdir, _⟩ := Option.bind_eq_some_iff.mp hown
      exact ⟨slug, (mem_sortedDirs_iff parent slug).mpr ⟨dir, hdir⟩, file, hown, hread⟩

/-- The files in the directory of a slice. -/
def PlanView.slice (view : PlanView) (path milestoneSlug sliceSlug : String) :
    String → Option MdFile :=
  fun name ↦ view (.inSlice path milestoneSlug sliceSlug name)

/-- Among the files of a slice, one that counts as a plan task, with the fields of its block. -/
structure HasTask (files : String → Option MdFile) (name : String) (fields : Frontmatter) :
    Prop where
  named : isTaskFileName name = true
  listed : files name = some (.parsed fields true)

section

variable (store : PlanStore) (path : String) {milestoneSlug sliceSlug : String}

theorem listMilestones_spec
    (hloads : ∀ slug file, store.file (.milestoneMd path slug) = some file →
      ∃ milestone, (file.read).bind (milestoneFromFile slug) = .ok milestone) :
    ∃ milestones, listMilestones (store.plans path) = .ok milestones ∧
      (milestones.map (·.slug)).Nodup ∧
      ∀ m, m ∈ milestones ↔ ∃ slug file, store.file (.milestoneMd path slug) = some file ∧
        (file.read).bind (milestoneFromFile slug) = .ok m :=
  listDirs_spec slug_of_milestoneFromFile hloads

theorem listSlices_spec (hsafe : isSafePlanSlug milestoneSlug = true)
    (hloads : ∀ slug file, store.file (.inSlice path milestoneSlug slug "slice.md") = some file →
      ∃ slice, (file.read).bind (sliceFromFile slug) = .ok slice) :
    ∃ slices, listSlices (store.plans path) milestoneSlug = .ok slices ∧
      (slices.map (·.slug)).Nodup ∧
      ∀ s, s ∈ slices ↔ ∃ slug file,
        store.file (.inSlice path milestoneSlug slug "slice.md") = some file ∧
          (file.read).bind (sliceFromFile slug) = .ok s := by
  simp only [PlanStore.file_sliceMd] at hloads ⊢
  rw [listSlices, (assertSafePlanSlug_eq_ok_iff _ _).mpr hsafe]
  exact listDirs_spec slug_of_sliceFromFile hloads

theorem taskSlugOf_injOn {name other : String} (hname : isTaskFileName name = true)
    (hother : isTaskFileName other = true) (h : taskSlugOf name = taskSlugOf other) :
    name = other := by
  rw [← taskFileName_taskSlugOf hname, h, taskFileName_taskSlugOf hother]

theorem listPlanTasks_spec (hmilestone : isSafePlanSlug milestoneSlug = true)
    (hslice : isSafePlanSlug sliceSlug = true) :
    ∃ tasks, listPlanTasks (store.plans path) milestoneSlug sliceSlug = .ok tasks ∧
      (tasks.map (·.slug)).Nodup ∧
      ∀ pt, pt ∈ tasks ↔ ∃ name fields,
        HasTask (PlanView.slice store.file path milestoneSlug sliceSlug) name fields ∧
          pt = taskFromFile (taskSlugOf name) fields := by
  obtain ⟨tasks, htasks⟩ := listPlanTasks_returns (store.plans path) hmilestone hslice
  have hmem := mem_listPlanTasks_iff (store.plans path) milestoneSlug sliceSlug
  rw [htasks] at hmem
  refine ⟨tasks, htasks, ?_, ?_⟩
  · rw [listPlanTasks, (assertSafePlanSlug_eq_ok_iff _ _).mpr hmilestone,
      (assertSafePlanSlug_eq_ok_iff _ _).mpr hslice] at htasks
    have hsublist : (tasks.map (·.slug)).Sublist
        ((sortedMdFiles (sliceDir (store.plans path) milestoneSlug sliceSlug)).map taskSlugOf) := by
      apply keys_sublist_of_mapM _ htasks
      intro name pt hfound
      unfold taskEntry at hfound
      split at hfound
      · cases hfound
      · rename_i file _
        cases hread : file.read with
        | error error =>
          rw [hread] at hfound
          cases hfound
        | ok fields =>
          rw [hread] at hfound
          cases hfound
          rfl
    apply List.Nodup.sublist hsublist
    have hnodup : (sortedMdFiles (sliceDir (store.plans path) milestoneSlug sliceSlug)).Nodup :=
      ((List.perm_insertionSort _ _).nodup_iff.mpr ((JsMap.nodup _).filter _)).filter _
    apply hnodup.map_on
    intro name hname other hother hsame
    exact taskSlugOf_injOn ((mem_sortedMdFiles_iff _ _).mp hname).1
      ((mem_sortedMdFiles_iff _ _).mp hother).1 hsame
  · intro pt
    calc pt ∈ tasks
        ↔ pt ∈ entriesOrNone (Except.ok tasks : Except String (List PlanTaskData)) := Iff.rfl
      _ ↔ _ := by
        rw [hmem, and_iff_right hmilestone, and_iff_right hslice]
        constructor
        · rintro ⟨name, fields, hname, hfile, hpt⟩
          exact ⟨name, fields, ⟨hname, hfile⟩, hpt⟩
        · rintro ⟨name, fields, htask, hpt⟩
          exact ⟨name, fields, htask.named, htask.listed, hpt⟩

end

end Flockctl.Plan
