import Flockctl.Plan.Slugs
import Flockctl.Plan.Walk

/-!
# Milestones with all their fields

`milestone.md` holds the record of a milestone. Creating a milestone and updating one write the
record as it is given; reading applies defaults, trims the description and checks the mission id
against a pattern. The two meet for a record whose title, status and order are there, whose gate is
a boolean, whose description is trimmed and not empty, and whose mission id matches the pattern.
-/

namespace Flockctl.Plan

open Collections

/-! ## Records -/

/-- `MilestoneData` with all its fields. -/
structure Milestone where
  slug : String
  title : YamlValue
  status : YamlValue
  order : YamlValue
  vision : Option YamlValue := none
  description : Option String := none
  successCriteria : Option YamlValue := none
  dependsOn : Option YamlValue := none
  keyRisks : Option YamlValue := none
  proofStrategy : Option YamlValue := none
  boundaryMapMarkdown : Option YamlValue := none
  verificationContract : Option YamlValue := none
  verificationIntegration : Option YamlValue := none
  verificationOperational : Option YamlValue := none
  verificationUat : Option YamlValue := none
  definitionOfDone : Option YamlValue := none
  specRequired : YamlValue
  missionId : Option String := none
  createdAt : Option YamlValue := none
  updatedAt : Option YamlValue := none
  deriving DecidableEq

/-- `Partial<MilestoneData>`; the slug and the date of the update are never taken from it. -/
structure MilestoneChanges where
  title : Option YamlValue := none
  status : Option YamlValue := none
  order : Option PlanOrder := none
  vision : Option YamlValue := none
  description : Option String := none
  successCriteria : Option YamlValue := none
  dependsOn : Option YamlValue := none
  keyRisks : Option YamlValue := none
  proofStrategy : Option YamlValue := none
  boundaryMapMarkdown : Option YamlValue := none
  verificationContract : Option YamlValue := none
  verificationIntegration : Option YamlValue := none
  verificationOperational : Option YamlValue := none
  verificationUat : Option YamlValue := none
  definitionOfDone : Option YamlValue := none
  specRequired : Option YamlValue := none
  missionId : Option String := none
  createdAt : Option YamlValue := none

/-- `value ?? fallback`. -/
def orElse (value : Option YamlValue) (fallback : YamlValue) : YamlValue :=
  match value with
  | none | some .null => fallback
  | some present => present

/-- `milestoneFromFile`. -/
def Milestone.fromFile (slug : String) (fm : Frontmatter) (body : String) :
    Except String Milestone := do
  let missionId ← parseMissionId (fm "mission_id")
  return {
    slug := slug
    title := orElse (fm "title") (.string slug)
    status := orElse (fm "status") (.string "pending")
    order := orElse (fm "order") (.number (parseOrder slug))
    vision := fm "vision"
    description := if body = "" then none else some body
    successCriteria := fm "success_criteria"
    dependsOn := fm "depends_on"
    keyRisks := fm "key_risks"
    proofStrategy := fm "proof_strategy"
    boundaryMapMarkdown := fm "boundary_map_markdown"
    verificationContract := fm "verification_contract"
    verificationIntegration := fm "verification_integration"
    verificationOperational := fm "verification_operational"
    verificationUat := fm "verification_uat"
    definitionOfDone := fm "definition_of_done"
    specRequired :=
      match fm "spec_required" with
      | some (.bool value) => .bool value
      | _ => .bool false
    missionId := missionId
    createdAt := fm "created_at"
    updatedAt := fm "updated_at" }

/-- `milestoneToFrontmatter`. -/
def Milestone.toFrontmatter (m : Milestone) : List (String × Option YamlValue) :=
  [("title", some m.title),
    ("status", some m.status),
    ("order", some m.order),
    ("vision", m.vision),
    ("success_criteria", m.successCriteria),
    ("depends_on", m.dependsOn),
    ("key_risks", m.keyRisks),
    ("proof_strategy", m.proofStrategy),
    ("boundary_map_markdown", m.boundaryMapMarkdown),
    ("verification_contract", m.verificationContract),
    ("verification_integration", m.verificationIntegration),
    ("verification_operational", m.verificationOperational),
    ("verification_uat", m.verificationUat),
    ("definition_of_done", m.definitionOfDone),
    ("spec_required", some m.specRequired),
    ("mission_id", m.missionId.map .string),
    ("created_at", m.createdAt),
    ("updated_at", m.updatedAt)]

/-- The record `createMilestone` writes. -/
def MilestoneChanges.full (data : MilestoneChanges) (slug : String) (order : PlanOrder)
    (now : Timestamp) : Milestone where
  slug := slug
  title := orElse data.title (.string "Untitled Milestone")
  status := orElse data.status (.string "pending")
  order := order.value
  vision := data.vision
  description := data.description
  successCriteria := data.successCriteria
  dependsOn := data.dependsOn
  keyRisks := data.keyRisks
  proofStrategy := data.proofStrategy
  boundaryMapMarkdown := data.boundaryMapMarkdown
  verificationContract := data.verificationContract
  verificationIntegration := data.verificationIntegration
  verificationOperational := data.verificationOperational
  verificationUat := data.verificationUat
  definitionOfDone := data.definitionOfDone
  specRequired := orElse data.specRequired (.bool true)
  missionId := data.missionId
  createdAt := some (.string now.text)
  updatedAt := some (.string now.text)

/-- The record `updateMilestone` writes: the fields of `data` that are not `undefined` over those
of the existing record. -/
def Milestone.merge (existing : Milestone) (data : MilestoneChanges) (now : Timestamp) :
    Milestone where
  slug := existing.slug
  title := data.title.getD existing.title
  status := data.status.getD existing.status
  order := (data.order.map PlanOrder.value).getD existing.order
  vision := data.vision.or existing.vision
  description := data.description.or existing.description
  successCriteria := data.successCriteria.or existing.successCriteria
  dependsOn := data.dependsOn.or existing.dependsOn
  keyRisks := data.keyRisks.or existing.keyRisks
  proofStrategy := data.proofStrategy.or existing.proofStrategy
  boundaryMapMarkdown := data.boundaryMapMarkdown.or existing.boundaryMapMarkdown
  verificationContract := data.verificationContract.or existing.verificationContract
  verificationIntegration := data.verificationIntegration.or existing.verificationIntegration
  verificationOperational := data.verificationOperational.or existing.verificationOperational
  verificationUat := data.verificationUat.or existing.verificationUat
  definitionOfDone := data.definitionOfDone.or existing.definitionOfDone
  specRequired := data.specRequired.getD existing.specRequired
  missionId := data.missionId.or existing.missionId
  createdAt := data.createdAt.or existing.createdAt
  updatedAt := some (.string now.text)

/-! ## The plan directory -/

/-- A directory of the plan directory, with the text of its `milestone.md`. -/
structure MilestoneFolder where
  milestoneMd : Option String := none
  slices : JsMap String SliceDir := JsMap.empty

/-- The plan directory: its directories, and the names of its other entries. -/
structure ProjectPlan where
  folders : JsMap String MilestoneFolder := JsMap.empty
  others : List String := []

/-- The directories as the readers of slices and plan tasks see them. -/
def ProjectPlan.dirs (package : YamlPackage) (plan : ProjectPlan) : PlanDir :=
  plan.folders.mapValues fun folder ↦
    { milestoneMd := folder.milestoneMd.map fun content ↦
        MdFile.ofContent package.parse (.ok content)
      slices := folder.slices }

namespace YamlPackage

variable (package : YamlPackage)

/-- What the readers make of the text of a `milestone.md`. -/
def readMilestone (slug content : String) : Except String Milestone :=
  Milestone.fromFile slug (parseMd package.parse content) (mdBody content)

/-- The text that the writers make of a record. -/
def milestoneText (m : Milestone) : String :=
  package.mdContent m.toFrontmatter (m.description.getD "")

end YamlPackage

namespace ProjectPlan

variable (package : YamlPackage) (plan : ProjectPlan)

/-- The text of `milestone.md` in a directory of the plan directory, where there is one. -/
def milestoneMd (slug : String) : Option String := (plan.folders.get slug).bind (·.milestoneMd)

/-- What `listMilestones` makes of a directory, before it drops the entries that are `null`. -/
def milestoneEntry (slug : String) : Except String (Option Milestone) :=
  match plan.milestoneMd slug with
  | none => .ok none
  | some content => (package.readMilestone slug content).map some

def listMilestones : Except String (List Milestone) :=
  ((sortedDirs plan.folders).mapM (plan.milestoneEntry package)).map List.reduceOption

def getMilestone (slug : String) : Except String (Option Milestone) := do
  assertSafePlanSlug slug "milestone slug"
  plan.milestoneEntry package slug

/-- `ensureDir(dir)` and `writeMd(join(dir, "milestone.md"), …)`. -/
def writeMilestone (m : Milestone) : ProjectPlan :=
  { plan with
    folders := plan.folders.set m.slug
      { (plan.folders.get m.slug).getD {} with milestoneMd := some (package.milestoneText m) } }

/-- `data.order ?? nextOrder(planDir, true)`. -/
def orderFor (data : MilestoneChanges) : PlanOrder :=
  match data.order with
  | none | some .null => .integer (nextOrder (sortedDirs plan.folders))
  | some order => order

/-- `data.title ?? "milestone"`, which `slugify` trims: it throws on what is no text. -/
def titleForSlug (data : MilestoneChanges) : Except String String :=
  match data.title with
  | none | some .null => .ok "milestone"
  | some (.string title) => .ok title
  | some _ => .error "name.trim is not a function"

def createMilestone (data : MilestoneChanges) (now : Timestamp) :
    Except String (ProjectPlan × Milestone) := do
  let title ← titleForSlug data
  let order := plan.orderFor data
  let slug := firstFree (plan.folders.keys ++ plan.others) (toSlug order title)
  let full := data.full slug order now
  return (plan.writeMilestone package full, full)

def updateMilestone (slug : String) (data : MilestoneChanges) (now : Timestamp) :
    Except String (ProjectPlan × Milestone) := do
  assertSafePlanSlug slug "milestone slug"
  match ← plan.getMilestone package slug with
  | none => .error ("Milestone not found: " ++ slug)
  | some existing =>
    let merged := existing.merge data now
    return (plan.writeMilestone package merged, merged)

end ProjectPlan

/-! ## The block of a record -/

theorem lookup_cleanEntries {frontmatter : List (String × Option YamlValue)}
    (hkeys : (frontmatter.map Prod.fst).Nodup) (key : String) :
    (cleanEntries frontmatter).lookup key = (frontmatter.lookup key).join := by
  induction frontmatter with
  | nil => rfl
  | cons entry rest ih =>
    obtain ⟨name, value⟩ := entry
    rw [List.map_cons, List.nodup_cons] at hkeys
    have hrest : (cleanEntries rest).lookup key = (rest.lookup key).join := ih hkeys.2
    cases value with
    | none =>
      calc (cleanEntries ((name, none) :: rest)).lookup key
          = (rest.lookup key).join := hrest
        _ = (((name, none) :: rest).lookup key).join := by
            rw [JsMap.lookup_entry]
            by_cases hname : key = name
            · have hmissing : rest.lookup key = none := by
                rw [List.lookup_eq_none_iff]
                intro other hother
                rw [bne_iff_ne, hname]
                exact fun heq ↦ hkeys.1 (List.mem_map.mpr ⟨other, hother, heq.symm⟩)
              rw [if_pos hname, hmissing]
              rfl
            · rw [if_neg hname]
    | some value =>
      calc (cleanEntries ((name, some value) :: rest)).lookup key
          = ((name, value) :: cleanEntries rest).lookup key := rfl
        _ = (((name, some value) :: rest).lookup key).join := by
            rw [JsMap.lookup_entry, JsMap.lookup_entry, hrest]
            split <;> rfl

namespace Milestone

theorem keys_toFrontmatter (m : Milestone) : (m.toFrontmatter.map Prod.fst).Nodup := by
  simp [toFrontmatter]

theorem isFieldName_of_mem_toFrontmatter (m : Milestone) :
    ∀ entry ∈ m.toFrontmatter, isFieldName entry.1 = true := by
  simp only [toFrontmatter, List.forall_mem_cons, List.not_mem_nil, false_imp_iff, implies_true,
    and_true]
  decide

theorem keys_cleanEntries (frontmatter : List (String × Option YamlValue)) :
    ((cleanEntries frontmatter).map Prod.fst).Sublist (frontmatter.map Prod.fst) := by
  induction frontmatter with
  | nil => exact List.Sublist.slnil
  | cons entry rest ih =>
    obtain ⟨name, value⟩ := entry
    cases value with
    | none => exact ih.cons name
    | some value => exact ih.cons_cons name

/-- The block of a record that is dated. -/
theorem isPlanBlock_toFrontmatter {m : Milestone} {now : Timestamp}
    (hnow : m.updatedAt = some (.string now.text)) : IsPlanBlock (cleanEntries m.toFrontmatter) where
  distinct := m.keys_toFrontmatter.sublist (keys_cleanEntries _)
  names entry hentry := by
    obtain ⟨field, hfield, hvalue⟩ := List.mem_filterMap.mp hentry
    obtain ⟨value, _, rfl⟩ := Option.map_eq_some_iff.mp hvalue
    exact m.isFieldName_of_mem_toFrontmatter field hfield
  stamped := by
    refine ⟨cleanEntries m.toFrontmatter.dropLast, "updated_at", now, ?_⟩
    have hlast : m.toFrontmatter =
        m.toFrontmatter.dropLast ++ [("updated_at", some (.string now.text))] := by
      rw [toFrontmatter, hnow]
      rfl
    rw [hlast, cleanEntries, List.filterMap_append, List.dropLast_concat]
    rfl

/-- A record that is read back as it was written. -/
structure SurvivesWriting (m : Milestone) : Prop where
  title : m.title ≠ .null
  status : m.status ≠ .null
  order : m.order ≠ .null
  description : ∀ text ∈ m.description, text ≠ "" ∧ IsTrimmed text.toList
  specRequired : ∃ value, m.specRequired = .bool value
  missionId : ∀ id ∈ m.missionId, matchesMissionId id.toList = true

/-- What a record is read back as, where its mission id is accepted. -/
def asRead (m : Milestone) : Milestone :=
  { m with
    title := orElse (some m.title) (.string m.slug)
    status := orElse (some m.status) (.string "pending")
    order := orElse (some m.order) (.number (parseOrder m.slug))
    description :=
      let body := String.ofList (trim (m.description.getD "").toList)
      if body = "" then none else some body
    specRequired :=
      match m.specRequired with
      | .bool value => .bool value
      | _ => .bool false }

theorem field_toFrontmatter (m : Milestone) (key : String) :
    Frontmatter.ofEntries (cleanEntries m.toFrontmatter) key = (m.toFrontmatter.lookup key).join :=
  lookup_cleanEntries m.keys_toFrontmatter key

theorem fromFile_toFrontmatter (m : Milestone) :
    fromFile m.slug (.ofEntries (cleanEntries m.toFrontmatter))
        (String.ofList (trim (m.description.getD "").toList)) =
      (parseMissionId (m.missionId.map .string)).map fun id ↦ { m.asRead with missionId := id } := by
  have hmission : Frontmatter.ofEntries (cleanEntries m.toFrontmatter) "mission_id" =
      m.missionId.map .string := by
    rw [field_toFrontmatter]
    simp [toFrontmatter, List.lookup_cons]
  rw [fromFile, hmission]
  cases parseMissionId (m.missionId.map .string) with
  | error error => rfl
  | ok id =>
    simp only [field_toFrontmatter]
    simp only [toFrontmatter, List.lookup_cons, bind, Except.bind, pure, Except.pure, Except.map, asRead]
    cases m.specRequired <;> simp

theorem parseMissionId_eq_ok_iff (id : Option String) :
    parseMissionId (id.map .string) = .ok id ↔ ∀ text ∈ id, matchesMissionId text.toList = true := by
  cases id with
  | none => simp [parseMissionId]
  | some text => simp [parseMissionId]

theorem parseMissionId_ok {id found : Option String}
    (h : parseMissionId (id.map .string) = .ok found) : found = id := by
  cases id with
  | none =>
    cases h
    rfl
  | some text =>
    rw [Option.map_some, parseMissionId] at h
    split at h
    · cases h
      rfl
    · cases h

theorem orElse_some_eq_iff (value fallback : YamlValue) (hfallback : fallback ≠ .null) :
    orElse (some value) fallback = value ↔ value ≠ .null := by
  cases value <;> simp [orElse, hfallback]

theorem description_asRead (m : Milestone) : m.asRead.description = m.description ↔
    ∀ text ∈ m.description, text ≠ "" ∧ IsTrimmed text.toList := by
  cases hdescription : m.description with
  | none => simp [asRead, hdescription]
  | some text =>
    have hbody : String.ofList (trim text.toList) = text ↔ IsTrimmed text.toList := by
      rw [← trim_eq_self_iff, ← String.toList_inj, String.toList_ofList]
    simp only [asRead, hdescription, Option.getD_some, Option.mem_some_iff, forall_eq']
    constructor
    · intro hread
      split at hread
      · cases hread
      · rename_i hnonempty
        have htext := Option.some.inj hread
        exact ⟨htext ▸ hnonempty, hbody.mp htext⟩
    · rintro ⟨hnonempty, htrimmed⟩
      rw [hbody.mpr htrimmed, if_neg hnonempty]

theorem specRequired_asRead (m : Milestone) :
    m.asRead.specRequired = m.specRequired ↔ ∃ value, m.specRequired = .bool value := by
  cases hvalue : m.specRequired <;> simp [asRead, hvalue]

theorem asRead_eq_iff (m : Milestone) : m.asRead = m ↔
    m.title ≠ .null ∧ m.status ≠ .null ∧ m.order ≠ .null ∧
      (∀ text ∈ m.description, text ≠ "" ∧ IsTrimmed text.toList) ∧
        ∃ value, m.specRequired = .bool value := by
  rw [← description_asRead, ← specRequired_asRead,
    ← orElse_some_eq_iff m.title (.string m.slug) (by simp),
    ← orElse_some_eq_iff m.status (.string "pending") (by simp),
    ← orElse_some_eq_iff m.order (.number (parseOrder m.slug)) (by simp)]
  constructor
  · intro h
    exact ⟨congrArg title h, congrArg status h, congrArg order h, congrArg description h,
      congrArg specRequired h⟩
  · rintro ⟨htitle, hstatus, horder, hdescription, hspec⟩
    obtain ⟨slug, title, status, order⟩ := m
    simp only [asRead] at *
    simp only [htitle, hstatus, horder, hdescription, hspec]

/-- The record that is read from the block of a record. -/
theorem fromFile_toFrontmatter_eq_iff (m : Milestone) :
    fromFile m.slug (.ofEntries (cleanEntries m.toFrontmatter))
        (String.ofList (trim (m.description.getD "").toList)) = .ok m ↔ m.SurvivesWriting := by
  have hcheck : m.SurvivesWriting ↔
      m.asRead = m ∧ parseMissionId (m.missionId.map .string) = .ok m.missionId := by
    rw [asRead_eq_iff, parseMissionId_eq_ok_iff]
    constructor
    · intro h
      exact ⟨⟨h.title, h.status, h.order, h.description, h.specRequired⟩, h.missionId⟩
    · rintro ⟨⟨htitle, hstatus, horder, hdescription, hspec⟩, hmission⟩
      exact ⟨htitle, hstatus, horder, hdescription, hspec, hmission⟩
  rw [fromFile_toFrontmatter, hcheck]
  cases hid : parseMissionId (m.missionId.map .string) with
  | error error => simp [Except.map]
  | ok id =>
    rw [parseMissionId_ok hid]
    simp [Except.map, asRead]

end Milestone

/-- A record is read back as it was written exactly when it survives writing. -/
theorem YamlPackage.readMilestone_milestoneText (package : YamlPackage) {m : Milestone}
    {now : Timestamp} (hnow : m.updatedAt = some (.string now.text)) :
    package.readMilestone m.slug (package.milestoneText m) = .ok m ↔ m.SurvivesWriting := by
  have hblock := m.isPlanBlock_toFrontmatter hnow
  rw [readMilestone, milestoneText, package.parseMd_mdContent hblock,
    package.mdBody_mdContent hblock, m.fromFile_toFrontmatter_eq_iff]

/-! ## Reading a file -/

/-- The value of `mission_id` is one the readers accept. -/
def isMissionIdField : Option YamlValue → Bool
  | none | some .null => true
  | some (.string raw) => matchesMissionId raw.toList
  | some _ => false

theorem parseMissionId_returns_iff (raw : Option YamlValue) :
    (∃ id, parseMissionId raw = .ok id) ↔ isMissionIdField raw = true := by
  match raw with
  | none | some .null => simp [parseMissionId, isMissionIdField]
  | some (.string text) =>
    by_cases hmatches : matchesMissionId text.toList = true
    · simp [parseMissionId, isMissionIdField, hmatches]
    · simp [parseMissionId, isMissionIdField, hmatches]
  | some (.bool _) | some (.number _) | some (.fraction _) | some (.object _) =>
    simp [parseMissionId, isMissionIdField]

theorem matchesMissionId_of_parse {raw : Option YamlValue} {id : Option String}
    (h : parseMissionId raw = .ok id) : ∀ text ∈ id, matchesMissionId text.toList = true := by
  match raw with
  | none | some .null =>
    cases h
    simp
  | some (.string text) =>
    rw [parseMissionId] at h
    split at h
    · rename_i hmatches
      cases h
      simpa using hmatches
    · cases h
  | some (.bool _) | some (.number _) | some (.fraction _) | some (.object _) => cases h

theorem orElse_ne_null (value : Option YamlValue) {fallback : YamlValue}
    (hfallback : fallback ≠ .null) : orElse value fallback ≠ .null := by
  unfold orElse
  split
  · exact hfallback
  · exact hfallback
  · rename_i present _ hpresent
    exact fun hnull ↦ hpresent (by rw [hnull])

/-- A record as a file gives it: the defaults have been applied and the mission id is checked. -/
structure Milestone.IsRead (m : Milestone) (slug : String) : Prop where
  slug : m.slug = slug
  title : m.title ≠ .null
  status : m.status ≠ .null
  order : m.order ≠ .null
  specRequired : ∃ value, m.specRequired = .bool value
  missionId : ∀ id ∈ m.missionId, matchesMissionId id.toList = true

theorem Milestone.fromFile_returns_iff (slug : String) (fm : Frontmatter) (body : String) :
    (∃ m, fromFile slug fm body = .ok m) ↔ isMissionIdField (fm "mission_id") = true := by
  rw [← parseMissionId_returns_iff]
  constructor
  · rintro ⟨m, hm⟩
    obtain ⟨id, hid, _⟩ := bind_eq_ok_iff.mp hm
    exact ⟨id, hid⟩
  · rintro ⟨id, hid⟩
    rw [fromFile, hid]
    exact ⟨_, rfl⟩

theorem Milestone.isRead_of_fromFile {slug : String} {fm : Frontmatter} {body : String}
    {m : Milestone} (h : fromFile slug fm body = .ok m) : m.IsRead slug := by
  obtain ⟨id, hid, hm⟩ := bind_eq_ok_iff.mp h
  cases hm
  refine ⟨rfl, orElse_ne_null _ (by simp), orElse_ne_null _ (by simp), orElse_ne_null _ (by simp),
    ?_, matchesMissionId_of_parse hid⟩
  dsimp only
  split
  · exact ⟨_, rfl⟩
  · exact ⟨_, rfl⟩

/-! ## Listing and looking up -/

namespace ProjectPlan

variable {package : YamlPackage} {plan : ProjectPlan}

/-- Every `milestone.md` is accepted by the readers. -/
def Loads (package : YamlPackage) (plan : ProjectPlan) : Prop :=
  ∀ slug content, plan.milestoneMd slug = some content →
    isMissionIdField (parseMd package.parse content "mission_id") = true

theorem milestoneEntry_of_some {slug content : String}
    (h : plan.milestoneMd slug = some content) :
    plan.milestoneEntry package slug = (package.readMilestone slug content).map some := by
  rw [milestoneEntry, h]

theorem milestoneEntry_eq_some_iff (slug : String) (m : Milestone) :
    plan.milestoneEntry package slug = .ok (some m) ↔
      ∃ content, plan.milestoneMd slug = some content ∧
        package.readMilestone slug content = .ok m := by
  cases hcontent : plan.milestoneMd slug with
  | none => simp [milestoneEntry, hcontent]
  | some content =>
    rw [milestoneEntry_of_some hcontent]
    cases hread : package.readMilestone slug content <;> simp [Except.map, hread]

theorem mem_sortedDirs_of_milestoneMd {slug content : String}
    (h : plan.milestoneMd slug = some content) : slug ∈ sortedDirs plan.folders := by
  obtain ⟨folder, hfolder, _⟩ := Option.bind_eq_some_iff.mp h
  exact (mem_sortedDirs_iff _ _).mpr ⟨folder, hfolder⟩

/-- The listing returns exactly when every file is accepted. -/
theorem listMilestones_returns_iff :
    (∃ milestones, plan.listMilestones package = .ok milestones) ↔ plan.Loads package := by
  have hmap : (∃ milestones, plan.listMilestones package = .ok milestones) ↔
      ∀ slug ∈ sortedDirs plan.folders, ∃ entry, plan.milestoneEntry package slug = .ok entry := by
    rw [← mapM_ok_iff, listMilestones]
    cases (sortedDirs plan.folders).mapM (plan.milestoneEntry package) <;> simp [Except.map]
  rw [hmap]
  constructor
  · intro hentries slug content hcontent
    obtain ⟨entry, hentry⟩ := hentries slug (mem_sortedDirs_of_milestoneMd hcontent)
    rw [milestoneEntry_of_some hcontent] at hentry
    rw [← Milestone.fromFile_returns_iff slug _ (mdBody content)]
    cases hread : package.readMilestone slug content with
    | error error =>
      rw [hread] at hentry
      cases hentry
    | ok m => exact ⟨m, hread⟩
  · intro hloads slug _
    cases hcontent : plan.milestoneMd slug with
    | none => exact ⟨none, by rw [milestoneEntry, hcontent]⟩
    | some content =>
      obtain ⟨m, hm⟩ := (Milestone.fromFile_returns_iff slug _ (mdBody content)).mpr
        (hloads slug content hcontent)
      exact ⟨some m, (milestoneEntry_eq_some_iff slug m).mpr ⟨content, hcontent, hm⟩⟩

/-- A listing that returns holds the records of the files. -/
theorem mem_listMilestones_iff {milestones : List Milestone}
    (h : plan.listMilestones package = .ok milestones) (m : Milestone) :
    m ∈ milestones ↔ ∃ slug content, plan.milestoneMd slug = some content ∧
      package.readMilestone slug content = .ok m := by
  rw [listMilestones] at h
  cases hentries : (sortedDirs plan.folders).mapM (plan.milestoneEntry package) with
  | error error => simp [hentries, Except.map] at h
  | ok entries =>
    rw [hentries] at h
    cases h
    rw [List.reduceOption_mem_iff, mem_of_mapM_ok hentries]
    constructor
    · rintro ⟨slug, _, hentry⟩
      exact ⟨slug, (milestoneEntry_eq_some_iff slug m).mp hentry⟩
    · rintro ⟨slug, content, hcontent, hread⟩
      exact ⟨slug, mem_sortedDirs_of_milestoneMd hcontent,
        (milestoneEntry_eq_some_iff slug m).mpr ⟨content, hcontent, hread⟩⟩

theorem getMilestone_eq_some_iff (slug : String) (m : Milestone) :
    plan.getMilestone package slug = .ok (some m) ↔ isSafePlanSlug slug = true ∧
      ∃ content, plan.milestoneMd slug = some content ∧
        package.readMilestone slug content = .ok m := by
  rw [← milestoneEntry_eq_some_iff, ← assertSafePlanSlug_eq_ok_iff slug "milestone slug",
    getMilestone, bind_eq_ok_iff]
  constructor
  · rintro ⟨value, hsafe, hentry⟩
    exact ⟨hsafe, hentry⟩
  · rintro ⟨hsafe, hentry⟩
    exact ⟨(), hsafe, hentry⟩

theorem milestoneMd_writeMilestone (m : Milestone) (slug : String) :
    (plan.writeMilestone package m).milestoneMd slug =
      if slug = m.slug then some (package.milestoneText m) else plan.milestoneMd slug := by
  rw [milestoneMd, writeMilestone, JsMap.get_set]
  split <;> rfl

theorem updateMilestone_spec {slug : String} {data : MilestoneChanges} {now : Timestamp}
    {after : ProjectPlan} {m : Milestone}
    (h : plan.updateMilestone package slug data now = .ok (after, m)) :
    ∃ existing, plan.getMilestone package slug = .ok (some existing) ∧
      m = existing.merge data now ∧ after = plan.writeMilestone package m := by
  obtain ⟨_, _, h⟩ := bind_eq_ok_iff.mp h
  obtain ⟨found, hfound, h⟩ := bind_eq_ok_iff.mp h
  cases found with
  | none => cases h
  | some existing =>
    cases h
    exact ⟨existing, hfound, rfl, rfl⟩

end ProjectPlan

end Flockctl.Plan
