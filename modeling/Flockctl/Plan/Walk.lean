import Flockctl.Ai.KeySelection
import Flockctl.Plan.Tree

/-!
# The walk over all plan trees

The boot sweeps and the plan-task resolver walk projects, milestones, slices and plan tasks with
the listing functions, and catch what these throw by going on with the next project, milestone or
slice. So a plan task is reached only when every milestone file of its project can be accepted,
every slice file of its milestone can be read, and the two directories above it have safe names.
-/

namespace Flockctl.Plan

open Collections Ai

/-- The columns of the projects table the walk reads. -/
structure ProjectRow where
  id : ProjectId
  path : Option String
  deriving DecidableEq, Repr

/-- The plan directories on disk, under the paths of their projects. -/
abbrev FileSystem := String → PlanDir

structure PlanTaskLocation where
  projectPath : String
  milestoneSlug : String
  sliceSlug : String
  taskSlug : String
  deriving DecidableEq, Repr

/-- A plan task the walk visits, with the project it was found in. -/
structure Visit where
  projectId : ProjectId
  location : PlanTaskLocation
  task : PlanTaskData
  deriving DecidableEq, Repr

/-- `if (!project.path) continue;`. -/
def ProjectRow.root (project : ProjectRow) : Option String := project.path.filter (· != "")

/-- The visits below one project path. -/
def walkPlan (plan : PlanDir) (projectId : ProjectId) (projectPath : String) : List Visit :=
  (entriesOrNone (listMilestones plan)).flatMap fun m ↦
    (entriesOrNone (listSlices plan m.slug)).flatMap fun s ↦
      (entriesOrNone (listPlanTasks plan m.slug s.slug)).map fun pt ↦
        ⟨projectId, ⟨projectPath, m.slug, s.slug, pt.slug⟩, pt⟩

/-- The nested loops of the sweeps and of the resolver, in the order of their visits. -/
def walkPlanTasks (projects : List ProjectRow) (plans : FileSystem) : List Visit :=
  projects.flatMap fun project ↦
    match project.root with
    | none => []
    | some path => walkPlan (plans path) project.id path

/-- `listMilestones` does not throw on this directory. -/
def MilestoneDir.loads (dir : MilestoneDir) : Bool :=
  dir.milestoneMd.all fun file ↦ (file.read.bind fun fm ↦ parseMissionId (fm "mission_id")).isOk

/-- `listSlices` does not throw on this directory. -/
def SliceDir.loads (dir : SliceDir) : Bool := (SliceDir.sliceMd dir).all fun file ↦ file.read.isOk

/-- Nothing on the way to the plan tasks of a slice throws. -/
structure Accessible (plan : PlanDir) (milestoneSlug sliceSlug : String) : Prop where
  milestones : ∀ slug dir, plan.get slug = some dir → dir.loads = true
  milestoneSafe : isSafePlanSlug milestoneSlug = true
  slices : ∀ slug dir, (milestoneDir plan milestoneSlug).slices.get slug = some dir →
    dir.loads = true
  sliceSafe : isSafePlanSlug sliceSlug = true

/-- A plan-task file: a listed task file in a slice directory of a milestone directory, both of
which have their own file. -/
structure HoldsTask (plan : PlanDir) (milestoneSlug sliceSlug : String) (task : PlanTaskData) :
    Prop where
  milestone : ((plan.get milestoneSlug).bind (·.milestoneMd)).isSome
  slice : (((milestoneDir plan milestoneSlug).slices.get sliceSlug).bind SliceDir.sliceMd).isSome
  file : ∃ name fm, isTaskFileName name = true ∧
    (sliceDir plan milestoneSlug sliceSlug).get name = some (.parsed fm true) ∧
    task = taskFromFile (taskSlugOf name) fm

theorem mem_sortedDirs_iff {Dir : Type} (parent : JsMap String Dir) (name : String) :
    name ∈ sortedDirs parent ↔ ∃ dir, parent.get name = some dir := by
  rw [sortedDirs, List.mem_insertionSort, JsMap.mem_keys_iff]

theorem mem_sortedMdFiles_iff (dir : SliceDir) (name : String) :
    name ∈ sortedMdFiles dir ↔
      isTaskFileName name = true ∧ ∃ fm, dir.get name = some (.parsed fm true) := by
  rw [sortedMdFiles, List.mem_filter, List.mem_insertionSort, List.mem_filter, JsMap.mem_keys_iff]
  constructor
  · rintro ⟨⟨⟨file, hfile⟩, hname⟩, hlisted⟩
    refine ⟨hname, ?_⟩
    rw [hfile, Option.any_some] at hlisted
    cases file with
    | unreadable error => cases hlisted
    | parsed fm listed => exact ⟨fm, by rw [hfile, show listed = true from hlisted]⟩
  · rintro ⟨hname, fm, hfile⟩
    exact ⟨⟨⟨_, hfile⟩, hname⟩, by rw [hfile]; rfl⟩

/-- Behind the check of a slug, an unsafe one leaves nothing. -/
theorem entriesOrNone_assertSafe {Value : Type} (slug kind : String)
    (listing : Except String (List Value)) :
    entriesOrNone (do assertSafePlanSlug slug kind; listing) =
      if isSafePlanSlug slug then entriesOrNone listing else [] := by
  by_cases hsafe : isSafePlanSlug slug = true
  · rw [(assertSafePlanSlug_eq_ok_iff slug kind).mpr hsafe, if_pos hsafe]
    rfl
  · cases hassert : assertSafePlanSlug slug kind with
    | error error =>
      rw [if_neg hsafe]
      rfl
    | ok value => exact absurd ((assertSafePlanSlug_eq_ok_iff slug kind).mp hassert) hsafe

section

variable {Dir Record : Type} {own : Dir → Option MdFile}
  {fromFile : String → Frontmatter → Except String Record} {slugOf : Record → String}

theorem dirEntry_eq (parent : JsMap String Dir) {slug : String} {dir : Dir}
    (hdir : parent.get slug = some dir) :
    dirEntry own fromFile parent slug =
      match own dir with
      | none => .ok none
      | some file => ((file.read).bind (fromFile slug)).map some := by
  cases hown : own dir with
  | none => simp only [dirEntry, hdir, Option.bind_some, hown]
  | some file => simp only [dirEntry, hdir, Option.bind_some, hown]

/-- What a directory's own file is parsed to bears the slug of the directory. -/
theorem slugOf_of_read
    (hslug : ∀ slug fm record, fromFile slug fm = .ok record → slugOf record = slug)
    {file : MdFile} {slug : String} {record : Record}
    (h : (file.read).bind (fromFile slug) = .ok record) : slugOf record = slug := by
  cases hfm : file.read with
  | error error => simp [hfm, Except.bind] at h
  | ok fm =>
    apply hslug slug fm record
    rw [← h, hfm]
    rfl

/-- A listing of directories throws on the first own file that does not load. -/
theorem dirEntry_returns_iff (parent : JsMap String Dir) :
    (∀ slug ∈ sortedDirs parent, ∃ found, dirEntry own fromFile parent slug = .ok found) ↔
      ∀ slug dir, parent.get slug = some dir → ∀ file, own dir = some file →
        ∃ record, (file.read).bind (fromFile slug) = .ok record := by
  simp only [mem_sortedDirs_iff, forall_exists_index]
  apply forall_congr'
  intro slug
  apply forall_congr'
  intro dir
  apply forall_congr'
  intro hdir
  rw [dirEntry_eq parent hdir]
  cases own dir with
  | none => simp
  | some file =>
    cases hread : (file.read).bind (fromFile slug) <;> simp [hread, Except.map]

theorem listDirs_returns_iff (parent : JsMap String Dir) :
    (∃ records, listDirs own fromFile parent = .ok records) ↔
      ∀ slug dir, parent.get slug = some dir → ∀ file, own dir = some file →
        ∃ record, (file.read).bind (fromFile slug) = .ok record := by
  rw [← dirEntry_returns_iff, ← mapM_ok_iff, listDirs]
  cases (sortedDirs parent).mapM (dirEntry own fromFile parent) <;> simp [Except.map]

/-- A listing of directories that does not throw has the slugs of the directories that have their
own file; where it throws it has none. -/
theorem mem_listDirs_iff
    (hslug : ∀ slug fm record, fromFile slug fm = .ok record → slugOf record = slug)
    (parent : JsMap String Dir) (slug : String) :
    (∃ record ∈ entriesOrNone (listDirs own fromFile parent), slugOf record = slug) ↔
      (∀ other dir, parent.get other = some dir → ∀ file, own dir = some file →
        ∃ record, (file.read).bind (fromFile other) = .ok record) ∧
      ((parent.get slug).bind own).isSome := by
  have hentries (record : Record) (other : String) :
      dirEntry own fromFile parent other = .ok (some record) ↔
        ∃ dir file, parent.get other = some dir ∧ own dir = some file ∧
          (file.read).bind (fromFile other) = .ok record := by
    cases hdir : parent.get other with
    | none => simp [dirEntry, hdir]
    | some dir =>
      rw [dirEntry_eq parent hdir]
      cases hown : own dir with
      | none => simp [hown]
      | some file => cases hread : (file.read).bind (fromFile other) <;> simp [hown, hread, Except.map]
  simp only [listDirs, mem_entriesOrNone_mapM_iff, dirEntry_returns_iff, hentries]
  constructor
  · rintro ⟨record, ⟨hall, other, _, dir, file, hdir, hown, hread⟩, rfl⟩
    rw [slugOf_of_read hslug hread, hdir, Option.bind_some, hown]
    exact ⟨hall, rfl⟩
  · rintro ⟨hall, hsome⟩
    obtain ⟨file, hfile⟩ := Option.isSome_iff_exists.mp hsome
    obtain ⟨dir, hdir, hown⟩ := Option.bind_eq_some_iff.mp hfile
    obtain ⟨record, hread⟩ := hall slug dir hdir file hown
    have hlisted := (mem_sortedDirs_iff parent slug).mpr ⟨dir, hdir⟩
    exact ⟨record, ⟨hall, slug, hlisted, dir, file, hdir, hown, hread⟩,
      slugOf_of_read hslug hread⟩

end

theorem slug_of_milestoneFromFile (slug : String) (fm : Frontmatter) (milestone : MilestoneData)
    (h : milestoneFromFile slug fm = .ok milestone) : milestone.slug = slug := by
  unfold milestoneFromFile at h
  cases hmission : parseMissionId (fm "mission_id") with
  | error error => simp [hmission, bind, Except.bind] at h
  | ok missionId =>
    simp only [hmission, bind, Except.bind, pure, Except.pure, Except.ok.injEq] at h
    rw [← h]

theorem slug_of_sliceFromFile (slug : String) (fm : Frontmatter) (slice : SliceData)
    (h : sliceFromFile slug fm = .ok slice) : slice.slug = slug := by
  cases h
  rfl

theorem MilestoneDir.loads_iff (dir : MilestoneDir) (slug : String) :
    dir.loads = true ↔ ∀ file, dir.milestoneMd = some file →
      ∃ milestone, (file.read).bind (milestoneFromFile slug) = .ok milestone := by
  unfold MilestoneDir.loads milestoneFromFile
  cases dir.milestoneMd with
  | none => simp
  | some file =>
    cases hread : file.read with
    | error error => simp [hread, Except.bind, Except.isOk, Except.toBool]
    | ok fm =>
      cases hmission : parseMissionId (fm "mission_id") <;>
        simp [hread, hmission, bind, Except.bind, pure, Except.pure, Except.isOk, Except.toBool]

theorem SliceDir.loads_iff (dir : SliceDir) (slug : String) :
    dir.loads = true ↔ ∀ file, dir.sliceMd = some file →
      ∃ slice, (file.read).bind (sliceFromFile slug) = .ok slice := by
  unfold SliceDir.loads sliceFromFile
  cases dir.sliceMd with
  | none => simp
  | some file =>
    cases hread : file.read <;> simp [hread, Except.bind, Except.isOk, Except.toBool]

theorem mem_listMilestones_iff (plan : PlanDir) (slug : String) :
    (∃ m ∈ entriesOrNone (listMilestones plan), m.slug = slug) ↔
      (∀ other dir, plan.get other = some dir → dir.loads = true) ∧
        ((plan.get slug).bind (·.milestoneMd)).isSome := by
  rw [listMilestones, mem_listDirs_iff slug_of_milestoneFromFile]
  apply and_congr_left'
  constructor
  · intro hall other dir hdir
    exact (dir.loads_iff other).mpr (hall other dir hdir)
  · intro hall other dir hdir
    exact (dir.loads_iff other).mp (hall other dir hdir)

theorem mem_listSlices_iff (plan : PlanDir) (milestoneSlug slug : String) :
    (∃ s ∈ entriesOrNone (listSlices plan milestoneSlug), s.slug = slug) ↔
      isSafePlanSlug milestoneSlug = true ∧
      (∀ other dir, (milestoneDir plan milestoneSlug).slices.get other = some dir →
        dir.loads = true) ∧
      (((milestoneDir plan milestoneSlug).slices.get slug).bind SliceDir.sliceMd).isSome := by
  rw [listSlices, entriesOrNone_assertSafe]
  split
  · rename_i hsafe
    rw [mem_listDirs_iff slug_of_sliceFromFile, and_iff_right hsafe]
    apply and_congr_left'
    constructor
    · intro hall other dir hdir
      exact (dir.loads_iff other).mpr (hall other dir hdir)
    · intro hall other dir hdir
      exact (dir.loads_iff other).mp (hall other dir hdir)
  · rename_i hrejected
    simp [hrejected]

/-- Plan tasks are filtered before they are read, so none of their files makes the listing
throw. -/
theorem taskEntry_of_mem (dir : SliceDir) {name : String} (hname : name ∈ sortedMdFiles dir) :
    ∃ fm, dir.get name = some (.parsed fm true) ∧
      taskEntry dir name = .ok (some (taskFromFile (taskSlugOf name) fm)) := by
  obtain ⟨_, fm, hfile⟩ := (mem_sortedMdFiles_iff dir name).mp hname
  refine ⟨fm, hfile, ?_⟩
  unfold taskEntry
  rw [hfile]
  rfl

theorem listPlanTasks_returns (plan : PlanDir) {milestoneSlug sliceSlug : String}
    (hmilestone : isSafePlanSlug milestoneSlug = true) (hslice : isSafePlanSlug sliceSlug = true) :
    ∃ tasks, listPlanTasks plan milestoneSlug sliceSlug = .ok tasks := by
  obtain ⟨entries, hentries⟩ := (mapM_ok_iff (sortedMdFiles (sliceDir plan milestoneSlug
    sliceSlug))).mpr fun name hname ↦ (taskEntry_of_mem _ hname).imp' _ fun _ h ↦ h.2
  refine ⟨entries.reduceOption, ?_⟩
  rw [listPlanTasks, (assertSafePlanSlug_eq_ok_iff _ _).mpr hmilestone,
    (assertSafePlanSlug_eq_ok_iff _ _).mpr hslice]
  change Except.map List.reduceOption (List.mapM (taskEntry _) _) = _
  rw [hentries]
  rfl

theorem mem_listPlanTasks_iff (plan : PlanDir) (milestoneSlug sliceSlug : String)
    (task : PlanTaskData) :
    task ∈ entriesOrNone (listPlanTasks plan milestoneSlug sliceSlug) ↔
      isSafePlanSlug milestoneSlug = true ∧ isSafePlanSlug sliceSlug = true ∧
      ∃ name fm, isTaskFileName name = true ∧
        (sliceDir plan milestoneSlug sliceSlug).get name = some (.parsed fm true) ∧
        task = taskFromFile (taskSlugOf name) fm := by
  rw [listPlanTasks, entriesOrNone_assertSafe]
  split
  · rename_i hmilestone
    rw [entriesOrNone_assertSafe]
    split
    · rename_i hslice
      rw [mem_entriesOrNone_mapM_iff, and_iff_right hmilestone, and_iff_right hslice]
      constructor
      · rintro ⟨_, name, hname, hfound⟩
        obtain ⟨fm, hfile, htask⟩ := taskEntry_of_mem _ hname
        rw [htask] at hfound
        cases hfound
        exact ⟨name, fm, ((mem_sortedMdFiles_iff _ name).mp hname).1, hfile, rfl⟩
      · rintro ⟨name, fm, hname, hfile, rfl⟩
        have hlisted := (mem_sortedMdFiles_iff _ name).mpr ⟨hname, fm, hfile⟩
        refine ⟨?_, name, hlisted, ?_⟩
        · intro other hother
          obtain ⟨_, _, htask⟩ := taskEntry_of_mem _ hother
          exact ⟨_, htask⟩
        · obtain ⟨fm', hfile', htask⟩ := taskEntry_of_mem _ hlisted
          rw [hfile] at hfile'
          cases hfile'
          exact htask
    · rename_i hrejected
      simp [hrejected]
  · rename_i hrejected
    simp [hrejected]

theorem mem_walkPlan_iff (plan : PlanDir) (projectId : ProjectId) (projectPath : String)
    (visit : Visit) :
    visit ∈ walkPlan plan projectId projectPath ↔
      visit.projectId = projectId ∧ visit.location.projectPath = projectPath ∧
      visit.location.taskSlug = visit.task.slug ∧
      Accessible plan visit.location.milestoneSlug visit.location.sliceSlug ∧
      HoldsTask plan visit.location.milestoneSlug visit.location.sliceSlug visit.task := by
  constructor
  · intro hvisit
    simp only [walkPlan, List.mem_flatMap, List.mem_map] at hvisit
    obtain ⟨m, hm, s, hs, pt, hpt, rfl⟩ := hvisit
    obtain ⟨hmilestones, hmilestone⟩ := (mem_listMilestones_iff plan m.slug).mp ⟨m, hm, rfl⟩
    obtain ⟨_, hslices, hslice⟩ := (mem_listSlices_iff plan m.slug s.slug).mp ⟨s, hs, rfl⟩
    obtain ⟨hmilestoneSafe, hsliceSafe, hfile⟩ := (mem_listPlanTasks_iff plan _ _ pt).mp hpt
    exact ⟨rfl, rfl, rfl, ⟨hmilestones, hmilestoneSafe, hslices, hsliceSafe⟩,
      ⟨hmilestone, hslice, hfile⟩⟩
  · obtain ⟨_, ⟨_, milestoneSlug, sliceSlug, _⟩, task⟩ := visit
    rintro ⟨hid, hpath, hslug, haccess, hholds⟩
    dsimp only at hid hpath hslug haccess hholds
    subst hid hpath hslug
    obtain ⟨m, hm, rfl⟩ := (mem_listMilestones_iff plan milestoneSlug).mpr
      ⟨haccess.milestones, hholds.milestone⟩
    obtain ⟨s, hs, rfl⟩ := (mem_listSlices_iff plan m.slug sliceSlug).mpr
      ⟨haccess.milestoneSafe, haccess.slices, hholds.slice⟩
    have hpt := (mem_listPlanTasks_iff plan m.slug s.slug task).mpr
      ⟨haccess.milestoneSafe, haccess.sliceSafe, hholds.file⟩
    simp only [walkPlan, List.mem_flatMap, List.mem_map]
    exact ⟨m, hm, s, hs, task, hpt, rfl⟩

theorem mem_walkPlanTasks_iff (projects : List ProjectRow) (plans : FileSystem) (visit : Visit) :
    visit ∈ walkPlanTasks projects plans ↔
      ∃ project ∈ projects, ∃ path, project.root = some path ∧
        visit ∈ walkPlan (plans path) project.id path := by
  rw [walkPlanTasks, List.mem_flatMap]
  apply exists_congr
  intro project
  apply and_congr_right
  intro _
  cases project.root <;> simp

end Flockctl.Plan
