import Flockctl.Missions.TaskMissions
import Flockctl.Plan.LineYaml
import Flockctl.Transition.Run

/-!
# Milestones that are linked to missions

Milestones are created and updated, people and agents edit the slices and plan tasks below them,
and terminal events look up the missions of tasks. Every milestone that was written is read back
with its fields, no listing throws and every lookup finds the mission, exactly in the runs whose
writes survive reading. A mission id that the route for missions makes never does: it holds dashes,
which the pattern of the readers does not allow.
-/

namespace Flockctl.Missions

open Collections Plan Transition

/-- An answer of the resolver, with the plan trees it was given for. -/
structure MissionLookup where
  plans : String → ProjectPlan
  taskId : ℕ
  answer : Option String

/-- The projects table, the plan trees, the cache of the resolver, and a record of what has been
written and looked up. -/
structure PlanBooks where
  projects : List ProjectRow
  plans : String → ProjectPlan
  cache : MissionCache := JsMap.empty
  written : JsMap (String × String) Milestone := JsMap.empty
  lookups : List MissionLookup := []

inductive PlanEvent
  | create (path : String) (data : MilestoneChanges) (now : Timestamp)
  | update (path slug : String) (data : MilestoneChanges) (now : Timestamp)
  /-- the slices of a milestone, with their plan tasks, become these -/
  | edit (path slug : String) (slices : JsMap String SliceDir)
  /-- the resolver is asked at this time, in milliseconds -/
  | lookup (taskId now : ℕ)

/-- The plan directory with the slices of a milestone replaced. -/
def editSlices (plan : ProjectPlan) (slug : String) (slices : JsMap String SliceDir) :
    ProjectPlan :=
  { plan with folders := plan.folders.modify slug fun folder ↦ { folder with slices := slices } }

namespace PlanBooks

variable (package : YamlPackage) (books : PlanBooks)

/-- What a create or an update leaves, which changes nothing when it throws. -/
def wrote (path : String) : Except String (ProjectPlan × Milestone) → PlanBooks
  | .error _ => books
  | .ok (plan, m) =>
    { books with
      plans := Function.update books.plans path plan
      written := books.written.set (path, m.slug) m }

def step (books : PlanBooks) : PlanEvent → PlanBooks
  | .create path data now =>
    books.wrote path ((books.plans path).createMilestone package data now)
  | .update path slug data now =>
    books.wrote path ((books.plans path).updateMilestone package slug data now)
  | .edit path slug slices =>
    { books with
      plans := Function.update books.plans path (editSlices (books.plans path) slug slices) }
  | .lookup taskId now =>
    let (answer, cache) :=
      resolveMissionForTask package books.projects books.plans books.cache taskId now
    { books with
      cache := cache
      lookups := books.lookups ++ [⟨books.plans, taskId, answer⟩] }

/-- Every milestone that was written is read back as it was written, no listing throws, and every
lookup has found the mission of its task. -/
structure Readable : Prop where
  lists : ∀ path, ∃ milestones, (books.plans path).listMilestones package = .ok milestones
  written : ∀ path slug m, books.written.get (path, slug) = some m →
    (books.plans path).getMilestone package slug = .ok (some m) ∧
      ∃ milestones, (books.plans path).listMilestones package = .ok milestones ∧ m ∈ milestones
  lookups : ∀ lookup ∈ books.lookups, ∀ missionId,
    IsMissionOf package books.projects lookup.plans lookup.taskId missionId →
      lookup.answer = some missionId

end PlanBooks

/-! ## Writes that survive -/

/-- The description of a record is trimmed text. -/
def IsPlainText (description : Option String) : Prop :=
  ∀ text ∈ description, text ≠ "" ∧ IsTrimmed text.toList

/-- The data of a new milestone that survive reading. -/
structure IsPlainNew (data : MilestoneChanges) : Prop where
  description : IsPlainText data.description
  specRequired : ∀ value ∈ data.specRequired, value = .null ∨ ∃ gate, value = .bool gate
  missionId : ∀ id ∈ data.missionId, matchesMissionId id.toList = true

/-- The changes of an existing milestone that survive reading. -/
structure IsPlainChange (existing : Milestone) (data : MilestoneChanges) : Prop where
  title : data.title ≠ some .null
  status : data.status ≠ some .null
  order : data.order ≠ some .null
  description : IsPlainText (data.description.or existing.description)
  specRequired : ∀ value ∈ data.specRequired, ∃ gate, value = .bool gate
  missionId : ∀ id ∈ data.missionId, matchesMissionId id.toList = true

/-- The events after which everything stays readable: a new milestone gets a slug the readers
accept and its data survive, the changes of an existing one survive, and a task that is looked up
has one mission, which a kept answer agrees with. -/
def IsPlainEvent (package : YamlPackage) (books : PlanBooks) : PlanEvent → Prop
  | .create path data _ => ∀ title, ProjectPlan.titleForSlug data = .ok title →
      isSafePlanSlug (toSlug ((books.plans path).orderFor data) title) = true ∧ IsPlainNew data
  | .update path slug data _ => ∀ existing,
      (books.plans path).getMilestone package slug = .ok (some existing) →
        IsPlainChange existing data
  | .edit _ _ _ => True
  | .lookup taskId now =>
      (∀ missionId other, IsMissionOf package books.projects books.plans taskId missionId →
        IsMissionOf package books.projects books.plans taskId other → other = missionId) ∧
      ∀ kept, (readCachedMissionForTask books.cache taskId now).1 = some kept →
        ∀ missionId, IsMissionOf package books.projects books.plans taskId missionId →
          kept = some missionId

theorem orderFor_ne_null (plan : ProjectPlan) (data : MilestoneChanges) :
    (plan.orderFor data).value ≠ .null := by
  unfold ProjectPlan.orderFor
  split
  · simp [PlanOrder.value]
  · simp [PlanOrder.value]
  · rename_i order hnull _
    cases order with
    | null => exact absurd rfl hnull
    | integer value => simp [PlanOrder.value]
    | fraction text => simp [PlanOrder.value]

theorem orElse_isBool_iff (value : Option YamlValue) :
    (∃ gate, orElse value (.bool true) = .bool gate) ↔
      ∀ given ∈ value, given = .null ∨ ∃ gate, given = .bool gate := by
  cases value with
  | none => simp [orElse]
  | some given => cases given <;> simp [orElse]

theorem survivesWriting_full_iff (data : MilestoneChanges) (slug : String) {order : PlanOrder}
    (now : Timestamp) (horder : order.value ≠ .null) :
    (data.full slug order now).SurvivesWriting ↔ IsPlainNew data := by
  constructor
  · intro h
    exact ⟨h.description, (orElse_isBool_iff _).mp h.specRequired, h.missionId⟩
  · intro h
    exact ⟨orElse_ne_null _ (by simp), orElse_ne_null _ (by simp), horder, h.description,
      (orElse_isBool_iff _).mpr h.specRequired, h.missionId⟩

theorem getD_ne_null_iff (value : Option YamlValue) {present : YamlValue}
    (hpresent : present ≠ .null) : value.getD present ≠ .null ↔ value ≠ some .null := by
  cases value <;> simp [hpresent]

theorem survivesWriting_merge_iff {existing : Milestone} {slug : String}
    (hexisting : existing.IsRead slug) (data : MilestoneChanges) (now : Timestamp) :
    (existing.merge data now).SurvivesWriting ↔ IsPlainChange existing data := by
  have horder : (data.order.map PlanOrder.value).getD existing.order ≠ .null ↔
      data.order ≠ some .null := by
    rw [getD_ne_null_iff _ hexisting.order]
    cases data.order with
    | none => simp
    | some order => cases order <;> simp [PlanOrder.value]
  have hspec : (∃ gate, data.specRequired.getD existing.specRequired = .bool gate) ↔
      ∀ value ∈ data.specRequired, ∃ gate, value = .bool gate := by
    cases data.specRequired with
    | none => simpa using hexisting.specRequired
    | some value => simp
  have hmission : (∀ id ∈ data.missionId.or existing.missionId,
      matchesMissionId id.toList = true) ↔
        ∀ id ∈ data.missionId, matchesMissionId id.toList = true := by
    cases data.missionId with
    | none => simpa using hexisting.missionId
    | some id => simp
  constructor
  · intro h
    exact ⟨(getD_ne_null_iff _ hexisting.title).mp h.title,
      (getD_ne_null_iff _ hexisting.status).mp h.status, horder.mp h.order, h.description,
      hspec.mp h.specRequired, hmission.mp h.missionId⟩
  · intro h
    exact ⟨(getD_ne_null_iff _ hexisting.title).mpr h.title,
      (getD_ne_null_iff _ hexisting.status).mpr h.status, horder.mpr h.order, h.description,
      hspec.mpr h.specRequired, hmission.mpr h.missionId⟩

/-! ## One event -/

namespace PlanBooks

variable {package : YamlPackage} {books : PlanBooks}

theorem Readable.loads (h : books.Readable package) (path : String) :
    (books.plans path).Loads package :=
  ProjectPlan.listMilestones_returns_iff.mp (h.lists path)

/-- The plan directory after a record has been written under its slug. -/
theorem milestoneMd_wrote {path : String} {m : Milestone} (other slug : String) :
    ((books.wrote path (.ok ((books.plans path).writeMilestone package m, m))).plans
        other).milestoneMd slug =
      if other = path ∧ slug = m.slug then some (package.milestoneText m)
      else (books.plans other).milestoneMd slug := by
  by_cases hpath : other = path
  · subst hpath
    simp [wrote, ProjectPlan.milestoneMd_writeMilestone]
  · simp [wrote, hpath]

/-- What is readable, in terms of the files. -/
theorem readable_iff : books.Readable package ↔
    (∀ path, (books.plans path).Loads package) ∧
    (∀ path slug m, books.written.get (path, slug) = some m → isSafePlanSlug slug = true ∧
      ∃ content, (books.plans path).milestoneMd slug = some content ∧
        package.readMilestone slug content = .ok m) ∧
    ∀ lookup ∈ books.lookups, ∀ missionId,
      IsMissionOf package books.projects lookup.plans lookup.taskId missionId →
        lookup.answer = some missionId := by
  constructor
  · intro h
    refine ⟨h.loads, fun path slug m hm ↦ ?_, h.lookups⟩
    exact (ProjectPlan.getMilestone_eq_some_iff slug m).mp (h.written path slug m hm).1
  · rintro ⟨hloads, hwritten, hlookups⟩
    have hlists (path : String) := ProjectPlan.listMilestones_returns_iff.mpr (hloads path)
    refine ⟨hlists, fun path slug m hm ↦ ?_, hlookups⟩
    obtain ⟨hsafe, hfile⟩ := hwritten path slug m hm
    obtain ⟨milestones, hmilestones⟩ := hlists path
    exact ⟨(ProjectPlan.getMilestone_eq_some_iff slug m).mpr ⟨hsafe, hfile⟩,
      milestones, hmilestones, (ProjectPlan.mem_listMilestones_iff hmilestones m).mpr ⟨slug, hfile⟩⟩

/-- A write leaves everything readable exactly when the slug is safe and the record survives. -/
theorem readable_wrote_iff (h : books.Readable package) (path : String) {m : Milestone}
    {now : Timestamp} (hnow : m.updatedAt = some (.string now.text)) :
    (books.wrote path (.ok ((books.plans path).writeMilestone package m, m))).Readable package ↔
      isSafePlanSlug m.slug = true ∧ m.SurvivesWriting := by
  obtain ⟨hloads, hwritten, hlookups⟩ := readable_iff.mp h
  have hread := package.readMilestone_milestoneText hnow
  rw [readable_iff]
  constructor
  · rintro ⟨_, hafter, _⟩
    obtain ⟨hsafe, content, hcontent, hm⟩ :=
      hafter path m.slug m (JsMap.get_set_self books.written (path, m.slug) m)
    rw [milestoneMd_wrote, if_pos ⟨rfl, rfl⟩] at hcontent
    cases hcontent
    exact ⟨hsafe, hread.mp hm⟩
  · rintro ⟨hsafe, hsurvives⟩
    refine ⟨fun other slug content hcontent ↦ ?_, fun other slug found hfound ↦ ?_, hlookups⟩
    · rw [milestoneMd_wrote] at hcontent
      split at hcontent
      · rename_i hwrote
        cases hcontent
        rw [← Milestone.fromFile_returns_iff m.slug _ (mdBody (package.milestoneText m))]
        exact ⟨m, hread.mpr hsurvives⟩
      · exact hloads other slug content hcontent
    · rw [milestoneMd_wrote]
      change (books.written.set (path, m.slug) m).get (other, slug) = some found at hfound
      rw [JsMap.get_set] at hfound
      split at hfound
      · rename_i hwrote
        cases hfound
        rw [if_pos (Prod.mk.inj hwrote), (Prod.mk.inj hwrote).2]
        exact ⟨hsafe, _, rfl, hread.mpr hsurvives⟩
      · rename_i hother
        rw [if_neg fun heq ↦ hother (Prod.ext heq.1 heq.2)]
        exact hwritten other slug found hfound

theorem readable_create_iff (h : books.Readable package) (path : String) (data : MilestoneChanges)
    (now : Timestamp) :
    (step package books (.create path data now)).Readable package ↔
      IsPlainEvent package books (.create path data now) := by
  cases htitle : ProjectPlan.titleForSlug data with
  | error error =>
    have hstep : step package books (.create path data now) = books := by
      simp [step, ProjectPlan.createMilestone, htitle, wrote, bind, Except.bind]
    rw [hstep]
    refine iff_of_true h fun title hother ↦ ?_
    rw [htitle] at hother
    cases hother
  | ok title =>
    let order := (books.plans path).orderFor data
    let slug := firstFree ((books.plans path).folders.keys ++ (books.plans path).others)
      (toSlug order title)
    have hstep : step package books (.create path data now) =
        books.wrote path (.ok ((books.plans path).writeMilestone package (data.full slug order now),
          data.full slug order now)) := by
      simp only [step, ProjectPlan.createMilestone, htitle]
      rfl
    have hsafe : isSafePlanSlug slug = isSafePlanSlug (toSlug order title) :=
      isSafePlanSlug_firstFree _ _ (toSlug_ne_empty order title)
    have hdated : (data.full slug order now).updatedAt = some (.string now.text) := rfl
    rw [hstep, readable_wrote_iff h path hdated,
      survivesWriting_full_iff data slug now (orderFor_ne_null _ _)]
    change isSafePlanSlug slug = true ∧ _ ↔ _
    rw [hsafe]
    constructor
    · intro hplain other hother
      rw [htitle] at hother
      cases hother
      exact hplain
    · intro hplain
      exact hplain title htitle

/-- An update that is accepted finds the record of the milestone. -/
theorem step_update_of_get {path slug : String} {existing : Milestone}
    (h : (books.plans path).getMilestone package slug = .ok (some existing))
    (data : MilestoneChanges) (now : Timestamp) :
    step package books (.update path slug data now) =
      books.wrote path (.ok ((books.plans path).writeMilestone package (existing.merge data now),
        existing.merge data now)) := by
  obtain ⟨hsafe, _⟩ := (ProjectPlan.getMilestone_eq_some_iff slug existing).mp h
  have hassert := (assertSafePlanSlug_eq_ok_iff slug "milestone slug").mpr hsafe
  simp only [step, ProjectPlan.updateMilestone, hassert, h]
  rfl

theorem step_update_of_throws {path slug : String}
    (h : ∀ existing, (books.plans path).getMilestone package slug ≠ .ok (some existing))
    (data : MilestoneChanges) (now : Timestamp) :
    step package books (.update path slug data now) = books := by
  cases hupdate : (books.plans path).updateMilestone package slug data now with
  | error error =>
    rw [step, hupdate]
    rfl
  | ok result =>
    obtain ⟨existing, hexisting, _⟩ := ProjectPlan.updateMilestone_spec hupdate
    exact absurd hexisting (h existing)

theorem readable_update_iff (h : books.Readable package) (path slug : String)
    (data : MilestoneChanges) (now : Timestamp) :
    (step package books (.update path slug data now)).Readable package ↔
      IsPlainEvent package books (.update path slug data now) := by
  by_cases hget : ∃ existing, (books.plans path).getMilestone package slug = .ok (some existing)
  · obtain ⟨existing, hexisting⟩ := hget
    obtain ⟨hsafe, content, _, hread⟩ :=
      (ProjectPlan.getMilestone_eq_some_iff slug existing).mp hexisting
    have hisRead := Milestone.isRead_of_fromFile hread
    have hslug : (existing.merge data now).slug = slug := hisRead.slug
    have hdated : (existing.merge data now).updatedAt = some (.string now.text) := rfl
    rw [step_update_of_get hexisting, readable_wrote_iff h path hdated, hslug,
      and_iff_right hsafe, survivesWriting_merge_iff hisRead]
    constructor
    · intro hplain other hother
      rw [hexisting] at hother
      cases hother
      exact hplain
    · intro hplain
      exact hplain existing hexisting
  · rw [step_update_of_throws (not_exists.mp hget)]
    exact iff_of_true h fun existing hexisting ↦ absurd ⟨existing, hexisting⟩ hget

theorem readable_edit (h : books.Readable package) (path slug : String)
    (slices : JsMap String SliceDir) :
    (step package books (.edit path slug slices)).Readable package := by
  obtain ⟨hloads, hwritten, hlookups⟩ := readable_iff.mp h
  have hmd (other name : String) :
      ((step package books (.edit path slug slices)).plans other).milestoneMd name =
        (books.plans other).milestoneMd name := by
    by_cases hpath : other = path
    · subst hpath
      simp only [step, Function.update_self, ProjectPlan.milestoneMd, editSlices, JsMap.get_modify]
      split
      · rename_i hname
        rw [hname, Option.bind_map]
        rfl
      · rfl
    · simp [step, hpath]
  rw [readable_iff]
  refine ⟨fun other name content hcontent ↦ ?_, fun other name m hm ↦ ?_, hlookups⟩
  · rw [hmd] at hcontent
    exact hloads other name content hcontent
  · rw [hmd]
    exact hwritten other name m hm

theorem readable_lookup_iff (h : books.Readable package) (taskId now : ℕ) :
    (step package books (.lookup taskId now)).Readable package ↔
      IsPlainEvent package books (.lookup taskId now) := by
  obtain ⟨hloads, hwritten, hlookups⟩ := readable_iff.mp h
  have hanswer := resolveMissionForTask_eq_iff books.projects taskId hloads books.cache now
  rw [readable_iff, IsPlainEvent, ← hanswer]
  constructor
  · rintro ⟨_, _, hafter⟩
    exact hafter ⟨books.plans, taskId, _⟩ (List.mem_append_right _ List.mem_cons_self)
  · intro hnew
    refine ⟨hloads, hwritten, fun lookup hlookup ↦ ?_⟩
    rcases List.mem_append.mp hlookup with hold | hlast
    · exact hlookups lookup hold
    · rw [List.mem_singleton.mp hlast]
      exact hnew

/-- After an event everything is still readable exactly when the event is plain. -/
theorem readable_step_iff (h : books.Readable package) (event : PlanEvent) :
    (step package books event).Readable package ↔ IsPlainEvent package books event := by
  cases event with
  | create path data now => exact readable_create_iff h path data now
  | update path slug data now => exact readable_update_iff h path slug data now
  | edit path slug slices => exact iff_of_true (readable_edit h path slug slices) trivial
  | lookup taskId now => exact readable_lookup_iff h taskId now

end PlanBooks

/-! ## Whole runs -/

/-- The store before any of the calls: files that others have written, and what the resolver has
kept. -/
def initialBooks (projects : List ProjectRow) (plans : String → ProjectPlan)
    (cache : MissionCache) : PlanBooks where
  projects := projects
  plans := plans
  cache := cache

theorem readable_initialBooks_iff (package : YamlPackage) (projects : List ProjectRow)
    (plans : String → ProjectPlan) (cache : MissionCache) :
    (initialBooks projects plans cache).Readable package ↔
      ∀ path, (plans path).Loads package := by
  rw [PlanBooks.readable_iff]
  constructor
  · exact fun h ↦ h.1
  · intro hloads
    refine ⟨hloads, fun path slug m hm ↦ ?_, fun lookup hlookup ↦ ?_⟩
    · cases hm
    · cases hlookup

/-- The ids that `randomUUID()` makes: five groups of lowercase hexadecimal digits. -/
def isIssuedMissionId (id : List Char) : Bool :=
  (id.splitOn '-').map List.length == [8, 4, 4, 4, 12] &&
    id.all fun c ↦ c == '-' || c.isDigit || ('a' ≤ c && c ≤ 'f')

/-- The readers accept none of them. -/
theorem not_matchesMissionId_of_isIssued {id : List Char} (h : isIssuedMissionId id = true) :
    matchesMissionId id = false := by
  rw [isIssuedMissionId, Bool.and_eq_true, beq_iff_eq] at h
  have hdash : '-' ∈ id := by
    by_contra hdash
    have hsplit : id.splitOn '-' = [id] := List.splitOn_eq_singleton hdash
    rw [hsplit] at h
    simp at h
  rw [matchesMissionId, Bool.and_eq_false_iff]
  right
  rw [List.all_eq_false]
  exact ⟨'-', hdash, by decide⟩

/-- The first milestone of a project, linked to a mission that the route has made. -/
def createLinked : PlanEvent :=
  .create "/srv/payments"
    { title := some (.string "Payments")
      missionId := some "5f0c9c1e-7a1d-4c7e-9f7b-2f4d3e8a6b10" }
    ⟨"2026-03-02T09:00:00.000Z", by decide, by decide⟩

end Flockctl.Missions
