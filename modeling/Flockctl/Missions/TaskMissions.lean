import Flockctl.Plan.Milestones

/-!
# The mission of a task

A task belongs to the mission of the milestone that has a plan task for it. The resolver walks the
plan trees of all projects and goes on with the next project, milestone or slice when a listing
throws; it keeps its answers for ten minutes, or for one minute where it found no mission. Nothing
that writes plan files clears the answers it keeps.
-/

namespace Flockctl.Missions

open Collections Plan

def MAX_CACHE_ENTRIES : ℕ := 4096

def NEGATIVE_TTL_MS : ℕ := 60 * 1000

def POSITIVE_TTL_MS : ℕ := 10 * 60 * 1000

/-- `CacheEntry`. -/
structure CachedMission where
  value : Option String
  insertedAt : ℕ
  deriving DecidableEq

/-- `missionForTaskCache`. -/
abbrev MissionCache := JsMap ℕ CachedMission

def CachedMission.isExpired (entry : CachedMission) (now : ℕ) : Bool :=
  let age := now - entry.insertedAt
  if entry.value.isSome then POSITIVE_TTL_MS < age else NEGATIVE_TTL_MS < age

/-- The cached answer, `none` for `undefined`, and the cache without an expired entry. -/
def readCachedMissionForTask (cache : MissionCache) (taskId now : ℕ) :
    Option (Option String) × MissionCache :=
  match cache.get taskId with
  | none => (none, cache)
  | some entry =>
    if entry.isExpired now then (none, cache.delete taskId) else (some entry.value, cache)

def writeCachedMissionForTask (cache : MissionCache) (taskId : ℕ) (value : Option String)
    (now : ℕ) : MissionCache :=
  let evicted :=
    if MAX_CACHE_ENTRIES ≤ cache.size then
      match cache.keys.head? with
      | none => cache
      | some oldest => cache.delete oldest
    else cache
  evicted.set taskId ⟨value, now⟩

section

variable (package : YamlPackage)

/-- The plan tasks of a project with the missions of their milestones, in the order of the walk. -/
def linkedTasks (plan : ProjectPlan) : List (String × PlanTaskData) :=
  (entriesOrNone (plan.listMilestones package)).flatMap fun m ↦
    match m.missionId.filter (· != "") with
    | none => []
    | some missionId =>
      (entriesOrNone (listSlices (plan.dirs package) m.slug)).flatMap fun s ↦
        (entriesOrNone (listPlanTasks (plan.dirs package) m.slug s.slug)).map fun pt ↦
          (missionId, pt)

/-- The same of all projects. -/
def walkMissions (projects : List ProjectRow) (plans : String → ProjectPlan) :
    List (String × PlanTaskData) :=
  projects.flatMap fun project ↦
    match project.root with
    | none => []
    | some path => linkedTasks package (plans path)

/-- `resolveMissionForTask`: the answer, and the cache it leaves. -/
def resolveMissionForTask (projects : List ProjectRow) (plans : String → ProjectPlan)
    (cache : MissionCache) (taskId now : ℕ) : Option String × MissionCache :=
  match readCachedMissionForTask cache taskId now with
  | (some cached, kept) => (cached, kept)
  | (none, kept) =>
    let answer := ((walkMissions package projects plans).find? fun linked ↦
      linked.2.pointsAt taskId).map Prod.fst
    (answer, writeCachedMissionForTask kept taskId answer now)

end

section

variable {package : YamlPackage} {projects : List ProjectRow} {plans : String → ProjectPlan}
  {plan : ProjectPlan} {taskId : ℕ} {missionId : String}

/-- The milestone with a slug has a plan task for a task. -/
def HasPlanTask (package : YamlPackage) (plan : ProjectPlan) (slug : String) (taskId : ℕ) : Prop :=
  ∃ slices, listSlices (plan.dirs package) slug = .ok slices ∧ ∃ s ∈ slices,
    ∃ planTasks, listPlanTasks (plan.dirs package) slug s.slug = .ok planTasks ∧
      ∃ pt ∈ planTasks, pt.pointsAt taskId = true

/-- The mission is that of a milestone of the project with a plan task for the task. -/
def IsMissionIn (package : YamlPackage) (plan : ProjectPlan) (taskId : ℕ) (missionId : String) :
    Prop :=
  ∃ slug content m, plan.milestoneMd slug = some content ∧
    package.readMilestone slug content = .ok m ∧ m.missionId = some missionId ∧
      HasPlanTask package plan slug taskId

/-- The same of all projects. -/
def IsMissionOf (package : YamlPackage) (projects : List ProjectRow)
    (plans : String → ProjectPlan) (taskId : ℕ) (missionId : String) : Prop :=
  ∃ project ∈ projects, ∃ path, project.root = some path ∧
    IsMissionIn package (plans path) taskId missionId

theorem mem_entriesOrNone_iff {Value : Type} {listing : Except String (List Value)}
    (value : Value) :
    value ∈ entriesOrNone listing ↔ ∃ values, listing = .ok values ∧ value ∈ values := by
  cases listing <;> simp [entriesOrNone]

theorem nonempty_of_matchesMissionId (h : matchesMissionId missionId.toList = true) :
    missionId ≠ "" := by
  rintro rfl
  cases h

/-- The missions the walk of a project passes on the way to a task. -/
theorem mem_linkedTasks_iff (hplan : plan.Loads package) :
    (∃ linked ∈ linkedTasks package plan, linked.2.pointsAt taskId = true ∧
      linked.1 = missionId) ↔ IsMissionIn package plan taskId missionId := by
  obtain ⟨milestones, hmilestones⟩ := ProjectPlan.listMilestones_returns_iff.mpr hplan
  have hmem := ProjectPlan.mem_listMilestones_iff hmilestones
  rw [linkedTasks, hmilestones]
  simp only [entriesOrNone, List.mem_flatMap]
  constructor
  · rintro ⟨linked, ⟨m, hm, hlinked⟩, hpoints, rfl⟩
    obtain ⟨slug, content, hcontent, hread⟩ := (hmem m).mp hm
    have hslug := (Milestone.isRead_of_fromFile hread).slug
    split at hlinked
    · cases hlinked
    · rename_i id hid
      obtain ⟨s, hs, hlinked⟩ := List.mem_flatMap.mp hlinked
      obtain ⟨pt, hpt, rfl⟩ := List.mem_map.mp hlinked
      obtain ⟨slices, hslices, hs⟩ := (mem_entriesOrNone_iff s).mp hs
      obtain ⟨planTasks, hplanTasks, hpt⟩ := (mem_entriesOrNone_iff pt).mp hpt
      rw [hslug] at hslices hplanTasks
      exact ⟨slug, content, m, hcontent, hread, (Option.filter_eq_some_iff.mp hid).1,
        slices, hslices, s, hs, planTasks, hplanTasks, pt, hpt, hpoints⟩
  · rintro ⟨slug, content, m, hcontent, hread, hmission, slices, hslices, s, hs, planTasks,
      hplanTasks, pt, hpt, hpoints⟩
    have hm := Milestone.isRead_of_fromFile hread
    have hid : m.missionId.filter (· != "") = some missionId := by
      have hnonempty := nonempty_of_matchesMissionId (hm.missionId missionId hmission)
      simp [hmission, Option.filter, hnonempty]
    refine ⟨(missionId, pt), ⟨m, (hmem m).mpr ⟨slug, content, hcontent, hread⟩, ?_⟩, hpoints, rfl⟩
    rw [hid, hm.slug]
    exact List.mem_flatMap.mpr ⟨s, (mem_entriesOrNone_iff s).mpr ⟨slices, hslices, hs⟩,
      List.mem_map.mpr ⟨pt, (mem_entriesOrNone_iff pt).mpr ⟨planTasks, hplanTasks, hpt⟩, rfl⟩⟩

theorem mem_walkMissions_iff (hplans : ∀ path, (plans path).Loads package) :
    (∃ linked ∈ walkMissions package projects plans, linked.2.pointsAt taskId = true ∧
      linked.1 = missionId) ↔ IsMissionOf package projects plans taskId missionId := by
  simp only [walkMissions, List.mem_flatMap]
  constructor
  · rintro ⟨linked, ⟨project, hproject, hlinked⟩, hpoints, hmission⟩
    split at hlinked
    · cases hlinked
    · rename_i path hpath
      exact ⟨project, hproject, path, hpath,
        (mem_linkedTasks_iff (hplans path)).mp ⟨linked, hlinked, hpoints, hmission⟩⟩
  · rintro ⟨project, hproject, path, hpath, hmission⟩
    obtain ⟨linked, hlinked, hpoints, hmission⟩ :=
      (mem_linkedTasks_iff (hplans path)).mpr hmission
    refine ⟨linked, ⟨project, hproject, ?_⟩, hpoints, hmission⟩
    rw [hpath]
    exact hlinked

/-- What the walk answers is a mission of the task, and it answers when there is one. -/
theorem find_walkMissions (hplans : ∀ path, (plans path).Loads package)
    (hmission : IsMissionOf package projects plans taskId missionId) :
    ∃ found, IsMissionOf package projects plans taskId found ∧
      ((walkMissions package projects plans).find? fun linked ↦
        linked.2.pointsAt taskId).map Prod.fst = some found := by
  obtain ⟨linked, hlinked, hpoints, _⟩ := (mem_walkMissions_iff hplans).mpr hmission
  cases hfind : (walkMissions package projects plans).find? fun linked ↦
      linked.2.pointsAt taskId with
  | none => exact absurd hpoints (List.find?_eq_none.mp hfind linked hlinked)
  | some first =>
    have hfirst : first.2.pointsAt taskId = true :=
      List.find?_some (p := fun linked : String × PlanTaskData ↦ linked.2.pointsAt taskId) hfind
    refine ⟨first.1, ?_, rfl⟩
    exact (mem_walkMissions_iff hplans).mp ⟨first, List.mem_of_find?_eq_some hfind, hfirst, rfl⟩

/-- A lookup of a task answers with each of its missions exactly when there is at most one, and an
answer kept from before agrees with it. -/
theorem resolveMissionForTask_eq_iff (projects : List ProjectRow) (taskId : ℕ)
    (hplans : ∀ path, (plans path).Loads package) (cache : MissionCache) (now : ℕ) :
    (∀ missionId, IsMissionOf package projects plans taskId missionId →
      (resolveMissionForTask package projects plans cache taskId now).1 = some missionId) ↔
    (∀ missionId other, IsMissionOf package projects plans taskId missionId →
      IsMissionOf package projects plans taskId other → other = missionId) ∧
    ∀ kept, (readCachedMissionForTask cache taskId now).1 = some kept →
      ∀ missionId, IsMissionOf package projects plans taskId missionId →
        kept = some missionId := by
  rw [resolveMissionForTask]
  cases hcached : readCachedMissionForTask cache taskId now with
  | mk found kept =>
    cases found with
    | some cached =>
      constructor
      · intro hanswer
        refine ⟨fun missionId other hmission hother ↦ ?_, fun value hvalue missionId hmission ↦ ?_⟩
        · exact Option.some.inj ((hanswer other hother).symm.trans (hanswer missionId hmission))
        · rw [← Option.some.inj hvalue]
          exact hanswer missionId hmission
      · rintro ⟨_, hagrees⟩ missionId hmission
        exact hagrees cached rfl missionId hmission
    | none =>
      constructor
      · intro hanswer
        refine ⟨fun missionId other hmission hother ↦ ?_, fun value hvalue ↦ by cases hvalue⟩
        exact Option.some.inj ((hanswer other hother).symm.trans (hanswer missionId hmission))
      · rintro ⟨hsingle, _⟩ missionId hmission
        obtain ⟨found, hfound, hwalk⟩ := find_walkMissions hplans hmission
        calc ((walkMissions package projects plans).find? fun linked ↦
              linked.2.pointsAt taskId).map Prod.fst
            = some found := hwalk
          _ = some missionId := by rw [hsingle missionId found hmission hfound]

end

end Flockctl.Missions
