import Flockctl.Plan.LineYaml
import Flockctl.Plan.Records

/-!
# What an update keeps of a plan file

An update rewrites the whole file from the record it read. The body survives, up to the white space
around it. A key of the frontmatter survives exactly when the record has a field for it whose reader
returns the value as it is, and none survives in a block that cannot be parsed.
-/

namespace Flockctl.Plan

open Collections

/-! ## Blocks written from a table of keys -/

/-- The value of each key of a table, in order. -/
def tableBlock (keys : List String) (field : String → Option YamlValue) :
    List (String × Option YamlValue) :=
  keys.map fun key ↦ (key, field key)

/-- The keys of a record that is dated when it is written. -/
structure IsFieldTable (keys : List String) : Prop where
  distinct : keys.Nodup
  names : ∀ key ∈ keys, isFieldName key = true
  stamped : ∃ front, keys = front ++ ["updated_at"]

section

variable {keys : List String} {field : String → Option YamlValue}

theorem keys_tableBlock : (tableBlock keys field).map Prod.fst = keys := by
  simp [tableBlock, Function.comp_def]

theorem lookup_tableBlock (key : String) :
    ((tableBlock keys field).lookup key).join = if key ∈ keys then field key else none := by
  split
  · next hkey => rw [tableBlock, List.lookup_graph _ hkey, Option.join_some]
  · next hkey =>
    have hmissing : (tableBlock keys field).lookup key = none := by
      rw [List.lookup_eq_none_iff]
      rintro ⟨other, value⟩ hother
      obtain ⟨name, hname, heq⟩ := List.mem_map.mp hother
      cases heq
      rw [bne_iff_ne]
      exact fun heq ↦ hkey (heq ▸ hname)
    rw [hmissing, Option.join_none]

theorem IsFieldTable.isPlanBlock (h : IsFieldTable keys) {now : Timestamp}
    (hnow : field "updated_at" = some (.string now.text)) :
    IsPlanBlock (cleanEntries (tableBlock keys field)) where
  distinct := by
    have hkeys := Milestone.keys_cleanEntries (tableBlock keys field)
    rw [keys_tableBlock] at hkeys
    exact h.distinct.sublist hkeys
  names entry hentry := by
    obtain ⟨row, hrow, hvalue⟩ := List.mem_filterMap.mp hentry
    obtain ⟨key, hkey, rfl⟩ := List.mem_map.mp hrow
    obtain ⟨value, -, rfl⟩ := Option.map_eq_some_iff.mp hvalue
    exact h.names key hkey
  stamped := by
    obtain ⟨front, hfront⟩ := h.stamped
    refine ⟨cleanEntries (tableBlock front field), "updated_at", now, ?_⟩
    rw [hfront, cleanEntries, tableBlock, List.map_append, List.filterMap_append]
    simp [hnow, cleanEntries, tableBlock]

/-- What is read back of a block is the table. -/
theorem IsFieldTable.parseMd_mdContent (h : IsFieldTable keys) (package : YamlPackage)
    {now : Timestamp} (hnow : field "updated_at" = some (.string now.text)) (body key : String) :
    parseMd package.parse (package.mdContent (tableBlock keys field) body) key =
      if key ∈ keys then field key else none := by
  rw [package.parseMd_mdContent (h.isPlanBlock hnow), Frontmatter.ofEntries,
    lookup_cleanEntries (by rw [keys_tableBlock]; exact h.distinct), lookup_tableBlock]

end

/-! ## What is kept -/

/-- The fields of a file's block, `none` where it cannot be parsed even with its stray backslashes
doubled. -/
def YamlPackage.blockFields (package : YamlPackage) (content : String) : Option Frontmatter :=
  match frontmatterBlock content.toList with
  | none => some .empty
  | some block =>
    match package.parse (String.ofList block) with
    | some document => some (document.getD .empty)
    | none =>
      (package.parse (String.ofList (sanitizeYamlEscapes block))).map (·.getD .empty)

theorem YamlPackage.parseMd_eq (package : YamlPackage) (content : String) :
    parseMd package.parse content = (package.blockFields content).getD .empty := by
  unfold parseMd blockFields
  cases frontmatterBlock content.toList with
  | none => rfl
  | some block =>
    dsimp only
    cases package.parse (String.ofList block) with
    | some document => rfl
    | none => cases package.parse (String.ofList (sanitizeYamlEscapes block)) <;> rfl

/-- The value an update has for a key of the frontmatter. -/
def named (data : List (String × Option YamlValue)) (key : String) : Option YamlValue :=
  (data.lookup key).join

/-- A file after an update keeps the values of the keys the update does not name, and the body if
the update has none; a block that cannot be parsed stays as it is. -/
structure FrameKept (package : YamlPackage) (before after : String)
    (data : List (String × Option YamlValue)) (description : Option String) : Prop where
  keys : match package.blockFields before with
    | none => frontmatterBlock after.toList = frontmatterBlock before.toList
    | some fm => ∀ key value, fm key = some value → key ≠ "updated_at" → named data key = none →
        parseMd package.parse after key = some value
  body : description = none → trim (mdBody after).toList = trim (mdBody before).toList

/-- The value at a key after an update: the date, what the update names, or what was read. -/
def updatedField (now : Timestamp) (data : List (String × Option YamlValue))
    (read : String → Option YamlValue) (key : String) : Option YamlValue :=
  if key = "updated_at" then some (.string now.text) else (named data key).or (read key)

/-- The text an update writes from what it read of the text before. -/
def updatedText (package : YamlPackage) (keys : List String)
    (read : Frontmatter → String → Option YamlValue) (data : List (String × Option YamlValue))
    (description : Option String) (now : Timestamp) (before : String) : String :=
  package.mdContent
    (tableBlock keys (updatedField now data (read (parseMd package.parse before))))
    ((description.or (bodyOrNone (mdBody before))).getD "")

section

variable {package : YamlPackage} {keys : List String}
  {read : Frontmatter → String → Option YamlValue} {data : List (String × Option YamlValue)}
  {description : Option String} {now : Timestamp} {before : String}

@[simp] theorem updatedField_date (now : Timestamp) (data : List (String × Option YamlValue))
    (read : String → Option YamlValue) :
    updatedField now data read "updated_at" = some (.string now.text) := if_pos rfl

theorem updatedField_of_unnamed {read : String → Option YamlValue} {key : String}
    (hdate : key ≠ "updated_at") (hnamed : named data key = none) :
    updatedField now data read key = read key := by
  rw [updatedField, if_neg hdate, hnamed, Option.none_or]

theorem getD_bodyOrNone (body : String) : (bodyOrNone body).getD "" = body := by
  unfold bodyOrNone
  split
  · next hempty => rw [hempty, Option.getD_none]
  · rfl

/-- The body of a file survives every update that has none. -/
theorem trim_mdBody_updatedText (hkeys : IsFieldTable keys) (hnone : description = none) :
    trim (mdBody (updatedText package keys read data description now before)).toList =
      trim (mdBody before).toList := by
  have hbody := package.mdBody_mdContent
    (hkeys.isPlanBlock (updatedField_date now data (read (parseMd package.parse before))))
    ((description.or (bodyOrNone (mdBody before))).getD "")
  rw [updatedText, hbody, hnone, Option.none_or, getD_bodyOrNone, String.toList_ofList]
  exact (trim_eq_self_iff _).mpr (isTrimmed_trim _)

/-- The block of an updated file can be parsed. -/
theorem frontmatterBlock_updatedText_ne (hkeys : IsFieldTable keys)
    (hbefore : package.blockFields before = none) :
    frontmatterBlock (updatedText package keys read data description now before).toList ≠
      frontmatterBlock before.toList := by
  have hplan := hkeys.isPlanBlock
    (updatedField_date now data (read (parseMd package.parse before)))
  intro hsame
  have hblock := package.stringify_fence _ hplan
  have hparse := package.parse_stringify _ hplan
  rw [updatedText, YamlPackage.mdContent,
    frontmatterBlock_composeMdContent (by rwa [String.toList_ofList])] at hsame
  rw [YamlPackage.blockFields, ← hsame] at hbefore
  dsimp only at hbefore
  rw [String.ofList_toList, hparse] at hbefore
  cases hbefore

/-- An update keeps the frame exactly when the block can be parsed and each of its keys that the
update does not name is one of the table and read as it is. -/
theorem frameKept_updatedText_iff (hkeys : IsFieldTable keys) :
    FrameKept package before (updatedText package keys read data description now before) data
        description ↔
      ∃ fm, package.blockFields before = some fm ∧
        ∀ key value, fm key = some value → key ≠ "updated_at" → named data key = none →
          key ∈ keys ∧ read fm key = some value := by
  have hread (key : String) :
      parseMd package.parse (updatedText package keys read data description now before) key =
        if key ∈ keys then updatedField now data (read (parseMd package.parse before)) key
        else none :=
    hkeys.parseMd_mdContent package (updatedField_date now data _) _ key
  constructor
  · rintro ⟨hkept, -⟩
    cases hbefore : package.blockFields before with
    | none =>
      rw [hbefore] at hkept
      exact absurd hkept (frontmatterBlock_updatedText_ne hkeys hbefore)
    | some fm =>
      have hfm : parseMd package.parse before = fm := by rw [package.parseMd_eq, hbefore]; rfl
      rw [hbefore] at hkept
      refine ⟨fm, rfl, fun key value hvalue hdate hnamed ↦ ?_⟩
      have hafter := hkept key value hvalue hdate hnamed
      rw [hread, updatedField_of_unnamed hdate hnamed, hfm] at hafter
      split at hafter
      · next hkey => exact ⟨hkey, hafter⟩
      · cases hafter
  · rintro ⟨fm, hbefore, hfields⟩
    have hfm : parseMd package.parse before = fm := by rw [package.parseMd_eq, hbefore]; rfl
    refine ⟨?_, trim_mdBody_updatedText hkeys⟩
    rw [hbefore]
    intro key value hvalue hdate hnamed
    obtain ⟨hkey, hsame⟩ := hfields key value hvalue hdate hnamed
    rw [hread, if_pos hkey, updatedField_of_unnamed hdate hnamed, hfm, hsame]

end

/-! ## Plan tasks -/

/-- The frontmatter keys an update of a plan task names. -/
def PlanTaskChanges.entries (data : PlanTaskChanges) : List (String × Option YamlValue) :=
  [("title", data.title), ("status", data.status), ("order", data.order.map PlanOrder.value),
    ("model", data.model), ("estimate", data.estimate), ("files", data.files),
    ("verify", data.verify), ("depends", data.depends), ("inputs", data.inputs),
    ("expected_output", data.expectedOutput),
    ("execution_task_id", data.executionTaskId), ("output", data.output),
    ("summary", data.summary), ("verification_passed", data.verificationPassed),
    ("verification_output", data.verificationOutput), ("failure_modes", data.failureModes),
    ("negative_tests", data.negativeTests), ("observability_impact", data.observabilityImpact),
    ("created_at", data.createdAt)]

/-- The keys `taskFromFile` and `taskToFrontmatter` know. -/
def PlanTask.keys : List String :=
  ["title", "status", "order", "model", "estimate", "files", "verify", "depends", "inputs",
    "expected_output", "execution_task_id", "output", "summary", "verification_passed",
    "verification_output", "failure_modes", "negative_tests", "observability_impact", "created_at",
    "updated_at"]

/-- The keys with a default for `null`. -/
def defaultedKeys : List String := ["title", "status", "order"]

/-- What the readers of plan tasks and slices take for the value at a key. -/
def readField (slug : String) (fm : Frontmatter) (key : String) : Option YamlValue :=
  if key = "title" then some (orElse (fm key) (.string slug))
  else if key = "status" then some (orElse (fm key) (.string "pending"))
  else if key = "order" then some (orElse (fm key) (.number (parseOrder slug)))
  else fm key

/-- A value is read as it is, unless it is `null` and has a default. -/
theorem readField_eq_some_iff {slug : String} {fm : Frontmatter} {key : String} {value : YamlValue}
    (h : fm key = some value) :
    readField slug fm key = some value ↔ (key ∈ defaultedKeys → value ≠ .null) := by
  unfold readField defaultedKeys
  rw [h]
  split
  · next hkey => simp [hkey, Milestone.orElse_some_eq_iff]
  · split
    · next hkey => simp [hkey, Milestone.orElse_some_eq_iff]
    · split
      · next hkey => simp [hkey, Milestone.orElse_some_eq_iff]
      · next htitle hstatus horder => simp [htitle, hstatus, horder]

namespace PlanTask

theorem isFieldTable_keys : IsFieldTable keys where
  distinct := by decide
  names := by decide
  stamped := ⟨keys.dropLast, rfl⟩

theorem toFrontmatter_merge (slug milestoneSlug sliceSlug : String) (fm : Frontmatter)
    (body : String) (data : PlanTaskChanges) (now : Timestamp) :
    ((fromFile slug milestoneSlug sliceSlug fm body).merge data now).toFrontmatter =
      tableBlock keys (updatedField now data.entries (readField slug fm)) := by
  simp [tableBlock, keys, updatedField, named, PlanTaskChanges.entries, readField, fromFile, merge,
    toFrontmatter, List.lookup_cons]

end PlanTask

/-- The frontmatter keys an update of a slice names. -/
def SliceChanges.entries (data : SliceChanges) : List (String × Option YamlValue) :=
  [("title", data.title), ("status", data.status), ("order", data.order.map PlanOrder.value),
    ("risk", data.risk), ("depends", data.depends), ("goal", data.goal), ("demo", data.demo),
    ("success_criteria", data.successCriteria), ("proof_level", data.proofLevel),
    ("integration_closure", data.integrationClosure),
    ("observability_impact", data.observabilityImpact), ("threat_surface", data.threatSurface),
    ("created_at", data.createdAt)]

namespace Slice

/-- The keys `sliceFromFile` and `sliceToFrontmatter` know. -/
def keys : List String :=
  ["title", "status", "order", "risk", "depends", "goal", "demo", "success_criteria", "proof_level",
    "integration_closure", "observability_impact", "threat_surface", "created_at", "updated_at"]

theorem isFieldTable_keys : IsFieldTable keys where
  distinct := by decide
  names := by decide
  stamped := ⟨keys.dropLast, rfl⟩

theorem toFrontmatter_merge (slug milestoneSlug : String) (fm : Frontmatter) (body : String)
    (data : SliceChanges) (now : Timestamp) :
    ((fromFile slug milestoneSlug fm body).merge data now).toFrontmatter =
      tableBlock keys (updatedField now data.entries (readField slug fm)) := by
  simp [tableBlock, keys, updatedField, named, SliceChanges.entries, readField, fromFile, merge,
    toFrontmatter, List.lookup_cons]

end Slice

/-! ## Milestones -/

/-- The frontmatter keys an update of a milestone names. -/
def MilestoneChanges.entries (data : MilestoneChanges) : List (String × Option YamlValue) :=
  [("title", data.title), ("status", data.status), ("order", data.order.map PlanOrder.value),
    ("vision", data.vision), ("success_criteria", data.successCriteria),
    ("depends_on", data.dependsOn), ("key_risks", data.keyRisks),
    ("proof_strategy", data.proofStrategy), ("boundary_map_markdown", data.boundaryMapMarkdown),
    ("verification_contract", data.verificationContract),
    ("verification_integration", data.verificationIntegration),
    ("verification_operational", data.verificationOperational),
    ("verification_uat", data.verificationUat), ("definition_of_done", data.definitionOfDone),
    ("spec_required", data.specRequired), ("mission_id", data.missionId.map .string),
    ("created_at", data.createdAt)]

namespace Milestone

/-- The keys `milestoneFromFile` and `milestoneToFrontmatter` know. -/
def keys : List String :=
  ["title", "status", "order", "vision", "success_criteria", "depends_on", "key_risks",
    "proof_strategy", "boundary_map_markdown", "verification_contract", "verification_integration",
    "verification_operational", "verification_uat", "definition_of_done", "spec_required",
    "mission_id", "created_at", "updated_at"]

/-- The gate as `milestoneFromFile` reads it. -/
def gateOf : Option YamlValue → YamlValue
  | some (.bool value) => .bool value
  | _ => .bool false

/-- The mission id as it is read, where it is accepted. -/
def missionOf : Option YamlValue → Option YamlValue
  | some (.string raw) => some (.string raw)
  | _ => none

/-- What `milestoneFromFile` takes for the value at a key of a block it accepts. -/
def readField (slug : String) (fm : Frontmatter) (key : String) : Option YamlValue :=
  if key = "spec_required" then some (gateOf (fm key))
  else if key = "mission_id" then missionOf (fm key)
  else Plan.readField slug fm key

/-- A gate that is no boolean is read as an open one, and a mission id that is `null` as none. -/
theorem readField_eq_some_iff {slug : String} {fm : Frontmatter} {key : String} {value : YamlValue}
    (h : fm key = some value) (hmission : isMissionIdField (fm "mission_id") = true) :
    readField slug fm key = some value ↔
      (key ∈ defaultedKeys → value ≠ .null) ∧
        (key = "spec_required" → ∃ gate, value = .bool gate) ∧
          (key = "mission_id" → value ≠ .null) := by
  unfold readField
  split
  · next hkey =>
    subst hkey
    rw [h]
    cases value <;> simp [gateOf, defaultedKeys]
  · next hspec =>
    split
    · next hkey =>
      subst hkey
      rw [h] at hmission ⊢
      cases value <;> simp_all [missionOf, defaultedKeys, isMissionIdField]
    · next hkey =>
      rw [Plan.readField_eq_some_iff h]
      simp [hspec, hkey]

theorem isFieldTable_keys : IsFieldTable keys where
  distinct := by decide
  names := by decide
  stamped := ⟨keys.dropLast, rfl⟩

/-- A mission id that is accepted is written as it was read. -/
theorem map_missionId_of_parse {raw : Option YamlValue} {id : Option String}
    (h : parseMissionId raw = .ok id) : id.map YamlValue.string = missionOf raw := by
  match raw with
  | none | some .null =>
    cases h
    rfl
  | some (.string text) =>
    rw [parseMissionId] at h
    split at h
    · cases h
      rfl
    · cases h
  | some (.bool _) | some (.number _) | some (.fraction _) | some (.object _) => cases h

theorem toFrontmatter_merge {slug : String} {fm : Frontmatter} {body : String}
    {existing : Milestone} (h : fromFile slug fm body = .ok existing) (data : MilestoneChanges)
    (now : Timestamp) :
    (existing.merge data now).toFrontmatter =
      tableBlock keys (updatedField now data.entries (readField slug fm)) := by
  obtain ⟨id, hid, hexisting⟩ := bind_eq_ok_iff.mp h
  cases hexisting
  have hmission (given : Option String) : (given.or id).map YamlValue.string =
      (given.map YamlValue.string).or (missionOf (fm "mission_id")) := by
    rw [← map_missionId_of_parse hid]
    cases given <;> rfl
  cases hgate : fm "spec_required" with
  | none =>
    simp [tableBlock, keys, updatedField, named, MilestoneChanges.entries, readField,
      Plan.readField, merge, toFrontmatter, List.lookup_cons, hmission, hgate, gateOf]
  | some value =>
    cases value <;>
      simp [tableBlock, keys, updatedField, named, MilestoneChanges.entries, readField,
        Plan.readField, merge, toFrontmatter, List.lookup_cons, hmission, hgate, gateOf]

end Milestone

/-! ## The updates -/

/-- An update that leaves the text `after`, or none, where the text `before` was. -/
def Frames (package : YamlPackage) (before : String) (data : List (String × Option YamlValue))
    (description : Option String) (failed : Prop) (after : Option String) : Prop :=
  (failed ∧ after = some before) ∨
    ∃ text, after = some text ∧ FrameKept package before text data description

/-- The block can be parsed, and each of its keys that the update does not name and that is not the
date of the update meets the condition. -/
def KeysMeet (package : YamlPackage) (before : String) (data : List (String × Option YamlValue))
    (condition : String → YamlValue → Prop) : Prop :=
  ∃ fm, package.blockFields before = some fm ∧
    ∀ key value, fm key = some value → key ≠ "updated_at" → named data key = none →
      condition key value

theorem KeysMeet.congr {package : YamlPackage} {before : String}
    {data : List (String × Option YamlValue)} {condition other : String → YamlValue → Prop}
    (h : ∀ key value, parseMd package.parse before key = some value →
      (condition key value ↔ other key value)) :
    KeysMeet package before data condition ↔ KeysMeet package before data other := by
  apply exists_congr
  intro fm
  apply and_congr_right
  intro hfm
  have hparse : parseMd package.parse before = fm := by rw [package.parseMd_eq, hfm]; rfl
  rw [hparse] at h
  constructor
  · exact fun hall key value hvalue hdate hnamed ↦
      (h key value hvalue).mp (hall key value hvalue hdate hnamed)
  · exact fun hall key value hvalue hdate hnamed ↦
      (h key value hvalue).mpr (hall key value hvalue hdate hnamed)

/-- An update that returns the text of the record. -/
theorem frames_updatedText_iff {package : YamlPackage} {keys : List String}
    {read : Frontmatter → String → Option YamlValue} {data : List (String × Option YamlValue)}
    {description : Option String} {now : Timestamp} {before : String} (hkeys : IsFieldTable keys)
    {failed : Prop} (hfailed : ¬ failed) :
    Frames package before data description failed
        (some (updatedText package keys read data description now before)) ↔
      KeysMeet package before data fun key value ↦
        key ∈ keys ∧ read (parseMd package.parse before) key = some value := by
  have hframes : Frames package before data description failed
      (some (updatedText package keys read data description now before)) ↔
        FrameKept package before (updatedText package keys read data description now before) data
          description := by
    simp [Frames, hfailed]
  rw [hframes, frameKept_updatedText_iff hkeys]
  apply exists_congr
  intro fm
  apply and_congr_right
  intro hfm
  have hparse : parseMd package.parse before = fm := by rw [package.parseMd_eq, hfm]; rfl
  rw [hparse]

/-- The store after an update, which a failure leaves as it is. -/
def storeAfter {Store Entity : Type} (store : Store) (result : Except String (Store × Entity)) :
    Store :=
  match result with
  | .error _ => store
  | .ok (after, _) => after

/-- The update fails. -/
def Fails {Result : Type} (result : Except String Result) : Prop := ∃ error, result = .error error

theorem not_fails_ok {Result : Type} (value : Result) : ¬ Fails (.ok value : Except String Result) := by
  rintro ⟨error, herror⟩
  cases herror

/-- A call that returns only for what is safe fails for what is not. -/
theorem fails_of_returns {Result : Type} {result : Except String Result} {Safe : Prop}
    (h : ∀ value, result = .ok value → Safe) (hrefused : ¬ Safe) : Fails result := by
  cases hresult : result with
  | error error => exact ⟨error, rfl⟩
  | ok value => exact absurd (h value hresult) hrefused

/-- An update that returns where its input is safe, and fails where it is not, keeps the frame
exactly when the keys meet what its reader asks of them. -/
theorem frames_storeAfter_iff {Store Entity : Type} {store : Store}
    {result : Except String (Store × Entity)} {Safe : Prop} {package : YamlPackage}
    {keys : List String} {read : Frontmatter → String → Option YamlValue}
    {data : List (String × Option YamlValue)} {description : Option String} {now : Timestamp}
    {before : String} {condition : String → YamlValue → Prop} (view : Store → Option String)
    (hkeys : IsFieldTable keys) (hbefore : view store = some before)
    (hsafe : ∀ value, result = .ok value → Safe)
    (hreturns : Safe → ∃ after entity, result = .ok (after, entity) ∧
      view after = some (updatedText package keys read data description now before))
    (hread : Safe → ∀ key value, parseMd package.parse before key = some value →
      (read (parseMd package.parse before) key = some value ↔ condition key value)) :
    Frames package before data description (Fails result) (view (storeAfter store result)) ↔
      (Safe → KeysMeet package before data fun key value ↦ key ∈ keys ∧ condition key value) := by
  by_cases h : Safe
  · obtain ⟨after, entity, hresult, hafter⟩ := hreturns h
    rw [hresult, storeAfter, hafter, frames_updatedText_iff hkeys (not_fails_ok _)]
    refine (KeysMeet.congr fun key value hvalue ↦
      and_congr_right fun _ ↦ hread h key value hvalue).trans ?_
    exact ⟨fun hkeys _ ↦ hkeys, fun hkeys ↦ hkeys h⟩
  · obtain ⟨error, herror⟩ := fails_of_returns hsafe h
    refine ⟨fun _ hthere ↦ absurd hthere h, fun _ ↦ Or.inl ⟨⟨error, herror⟩, ?_⟩⟩
    rw [herror]
    exact hbefore

section

variable {package : YamlPackage} {files : PlanTexts} {plan : ProjectPlan} {now : Timestamp}

/-- The slugs of a plan task are safe where the update returns. -/
theorem safe_of_updatePlanTask {milestoneSlug sliceSlug slug : String} {data : PlanTaskChanges}
    {result : PlanTexts × PlanTask}
    (h : files.updatePlanTask package milestoneSlug sliceSlug slug data now = .ok result) :
    isSafePlanSlug milestoneSlug = true ∧ isSafePlanSlug sliceSlug = true ∧
      isSafePlanSlug slug = true := by
  obtain ⟨found, hfound, -⟩ := bind_eq_ok_iff.mp h
  obtain ⟨_, hmilestone, hfound⟩ := bind_eq_ok_iff.mp hfound
  obtain ⟨_, hslice, hfound⟩ := bind_eq_ok_iff.mp hfound
  obtain ⟨_, htask, _⟩ := bind_eq_ok_iff.mp hfound
  exact ⟨(assertSafePlanSlug_eq_ok_iff _ _).mp hmilestone,
    (assertSafePlanSlug_eq_ok_iff _ _).mp hslice, (assertSafePlanSlug_eq_ok_iff _ _).mp htask⟩

/-- A plan task with safe slugs is written anew. -/
theorem updatePlanTask_of_safe {milestoneSlug sliceSlug slug before : String}
    (hsafe : isSafePlanSlug milestoneSlug = true ∧ isSafePlanSlug sliceSlug = true ∧
      isSafePlanSlug slug = true)
    (hfile : files (taskPath milestoneSlug sliceSlug slug) = some before)
    (data : PlanTaskChanges) :
    ∃ after merged, files.updatePlanTask package milestoneSlug sliceSlug slug data now =
        .ok (after, merged) ∧
      after (taskPath milestoneSlug sliceSlug slug) = some (updatedText package PlanTask.keys
        (readField slug) data.entries data.description now before) := by
  rw [PlanTexts.updatePlanTask, PlanTexts.getPlanTask,
    (assertSafePlanSlug_eq_ok_iff _ _).mpr hsafe.1,
    (assertSafePlanSlug_eq_ok_iff _ _).mpr hsafe.2.1,
    (assertSafePlanSlug_eq_ok_iff _ _).mpr hsafe.2.2, hfile]
  simp only [bind, Except.bind, pure, Except.pure, Option.map_some, PlanTexts.writeMd,
    PlanTask.toFrontmatter_merge]
  exact ⟨_, _, rfl, Function.update_self _ _ _⟩

theorem safe_of_updateSlice {milestoneSlug slug : String} {data : SliceChanges}
    {result : PlanTexts × Slice}
    (h : files.updateSlice package milestoneSlug slug data now = .ok result) :
    isSafePlanSlug milestoneSlug = true ∧ isSafePlanSlug slug = true := by
  obtain ⟨found, hfound, -⟩ := bind_eq_ok_iff.mp h
  obtain ⟨_, hmilestone, hfound⟩ := bind_eq_ok_iff.mp hfound
  obtain ⟨_, hslice, _⟩ := bind_eq_ok_iff.mp hfound
  exact ⟨(assertSafePlanSlug_eq_ok_iff _ _).mp hmilestone,
    (assertSafePlanSlug_eq_ok_iff _ _).mp hslice⟩

theorem updateSlice_of_safe {milestoneSlug slug before : String}
    (hsafe : isSafePlanSlug milestoneSlug = true ∧ isSafePlanSlug slug = true)
    (hfile : files (slicePath milestoneSlug slug) = some before) (data : SliceChanges) :
    ∃ after merged, files.updateSlice package milestoneSlug slug data now = .ok (after, merged) ∧
      after (slicePath milestoneSlug slug) = some (updatedText package Slice.keys
        (readField slug) data.entries data.description now before) := by
  rw [PlanTexts.updateSlice, PlanTexts.getSlice, (assertSafePlanSlug_eq_ok_iff _ _).mpr hsafe.1,
    (assertSafePlanSlug_eq_ok_iff _ _).mpr hsafe.2, hfile]
  simp only [bind, Except.bind, pure, Except.pure, Option.map_some, PlanTexts.writeMd,
    Slice.toFrontmatter_merge]
  exact ⟨_, _, rfl, Function.update_self _ _ _⟩

/-- Where the update of a milestone returns, its slug is safe and its mission id accepted. -/
theorem safe_of_updateMilestone {slug before : String} {data : MilestoneChanges}
    {result : ProjectPlan × Milestone} (hfile : plan.milestoneMd slug = some before)
    (h : plan.updateMilestone package slug data now = .ok result) :
    isSafePlanSlug slug = true ∧
      isMissionIdField (parseMd package.parse before "mission_id") = true := by
  obtain ⟨after, m⟩ := result
  obtain ⟨existing, hexisting, -⟩ := ProjectPlan.updateMilestone_spec h
  obtain ⟨hsafe, content, hcontent, hread⟩ :=
    (ProjectPlan.getMilestone_eq_some_iff slug existing).mp hexisting
  rw [hfile] at hcontent
  cases hcontent
  exact ⟨hsafe, (Milestone.fromFile_returns_iff slug _ _).mp ⟨existing, hread⟩⟩

theorem updateMilestone_of_safe {slug before : String}
    (hsafe : isSafePlanSlug slug = true ∧
      isMissionIdField (parseMd package.parse before "mission_id") = true)
    (hfile : plan.milestoneMd slug = some before) (data : MilestoneChanges) :
    ∃ after merged, plan.updateMilestone package slug data now = .ok (after, merged) ∧
      after.milestoneMd slug = some (updatedText package Milestone.keys
        (Milestone.readField slug) data.entries data.description now before) := by
  obtain ⟨existing, hread⟩ := (Milestone.fromFile_returns_iff slug _ (mdBody before)).mpr hsafe.2
  have hget : plan.getMilestone package slug = .ok (some existing) :=
    (ProjectPlan.getMilestone_eq_some_iff slug existing).mpr ⟨hsafe.1, before, hfile, hread⟩
  have hslug : existing.slug = slug := (Milestone.isRead_of_fromFile hread).slug
  have hdescription : existing.description = bodyOrNone (mdBody before) := by
    obtain ⟨id, -, hexisting⟩ := bind_eq_ok_iff.mp hread
    cases hexisting
    rfl
  rw [ProjectPlan.updateMilestone, (assertSafePlanSlug_eq_ok_iff _ _).mpr hsafe.1, hget]
  refine ⟨_, _, rfl, ?_⟩
  rw [ProjectPlan.milestoneMd_writeMilestone, if_pos (by rw [Milestone.merge, hslug]),
    YamlPackage.milestoneText, Milestone.toFrontmatter_merge hread, updatedText, ← hdescription]
  rfl

theorem updatePlanTask_frames {milestoneSlug sliceSlug slug before : String}
    (hfile : files (taskPath milestoneSlug sliceSlug slug) = some before) (data : PlanTaskChanges) :
    Frames package before data.entries data.description
        (Fails (files.updatePlanTask package milestoneSlug sliceSlug slug data now))
        (storeAfter files (files.updatePlanTask package milestoneSlug sliceSlug slug data now)
          (taskPath milestoneSlug sliceSlug slug)) ↔
      (isSafePlanSlug milestoneSlug = true ∧ isSafePlanSlug sliceSlug = true ∧
        isSafePlanSlug slug = true → KeysMeet package before data.entries fun key value ↦
          key ∈ PlanTask.keys ∧ (key ∈ defaultedKeys → value ≠ .null)) :=
  frames_storeAfter_iff (fun files ↦ files (taskPath milestoneSlug sliceSlug slug))
    PlanTask.isFieldTable_keys hfile (fun _ ↦ safe_of_updatePlanTask)
    (fun hsafe ↦ updatePlanTask_of_safe hsafe hfile data)
    fun _ _ _ hvalue ↦ readField_eq_some_iff hvalue

/-- An update keeps the frame of its file exactly when it fails, or the block can be parsed and each
of its keys that the update does not name is a field of the record, with no `null` for a title, a
status, an order or a mission id and a boolean for the gate of a milestone. -/
theorem updates_frames_iff (package : YamlPackage) (now : Timestamp) :
    (∀ (files : PlanTexts) (milestoneSlug sliceSlug slug before : String) (data : PlanTaskChanges),
      files (taskPath milestoneSlug sliceSlug slug) = some before →
        (Frames package before data.entries data.description
            (Fails (files.updatePlanTask package milestoneSlug sliceSlug slug data now))
            (storeAfter files (files.updatePlanTask package milestoneSlug sliceSlug slug data now)
              (taskPath milestoneSlug sliceSlug slug)) ↔
          (isSafePlanSlug milestoneSlug = true ∧ isSafePlanSlug sliceSlug = true ∧
            isSafePlanSlug slug = true → KeysMeet package before data.entries fun key value ↦
              key ∈ PlanTask.keys ∧ (key ∈ defaultedKeys → value ≠ .null)))) ∧
    (∀ (files : PlanTexts) (milestoneSlug slug before : String) (data : SliceChanges),
      files (slicePath milestoneSlug slug) = some before →
        (Frames package before data.entries data.description
            (Fails (files.updateSlice package milestoneSlug slug data now))
            (storeAfter files (files.updateSlice package milestoneSlug slug data now)
              (slicePath milestoneSlug slug)) ↔
          (isSafePlanSlug milestoneSlug = true ∧ isSafePlanSlug slug = true →
            KeysMeet package before data.entries fun key value ↦
              key ∈ Slice.keys ∧ (key ∈ defaultedKeys → value ≠ .null)))) ∧
    ∀ (plan : ProjectPlan) (slug before : String) (data : MilestoneChanges),
      plan.milestoneMd slug = some before →
        (Frames package before data.entries data.description
            (Fails (plan.updateMilestone package slug data now))
            ((storeAfter plan (plan.updateMilestone package slug data now)).milestoneMd slug) ↔
          (isSafePlanSlug slug = true ∧
              isMissionIdField (parseMd package.parse before "mission_id") = true →
            KeysMeet package before data.entries fun key value ↦
              key ∈ Milestone.keys ∧ (key ∈ defaultedKeys → value ≠ .null) ∧
                (key = "spec_required" → ∃ gate, value = .bool gate) ∧
                  (key = "mission_id" → value ≠ .null))) := by
  refine ⟨?_, ?_, ?_⟩
  · intro files milestoneSlug sliceSlug slug before data hfile
    exact updatePlanTask_frames hfile data
  · intro files milestoneSlug slug before data hfile
    exact frames_storeAfter_iff (fun files ↦ files (slicePath milestoneSlug slug))
      Slice.isFieldTable_keys hfile (fun _ ↦ safe_of_updateSlice)
      (fun hsafe ↦ updateSlice_of_safe hsafe hfile data)
      fun _ _ _ hvalue ↦ readField_eq_some_iff hvalue
  · intro plan slug before data hfile
    exact frames_storeAfter_iff (fun plan ↦ plan.milestoneMd slug) Milestone.isFieldTable_keys hfile
      (fun _ ↦ safe_of_updateMilestone hfile)
      (fun hsafe ↦ updateMilestone_of_safe hsafe hfile data)
      fun hsafe _ _ hvalue ↦ Milestone.readField_eq_some_iff hvalue hsafe.2

end

/-! ## Two plan tasks -/

theorem YamlPackage.blockFields_of_parse {package : YamlPackage} {content : String}
    {block : List Char} {document : Option Frontmatter}
    (hblock : frontmatterBlock content.toList = some block)
    (hparse : package.parse (String.ofList block) = some document) :
    package.blockFields content = some (document.getD .empty) := by
  rw [blockFields, hblock]
  dsimp only
  rw [hparse]

/-- A date. -/
def someDay : Timestamp := ⟨"2026-01-01T00:00:00.000Z", by decide, by decide⟩

/-- One plan task with a text. -/
def oneTask (content : String) : PlanTexts := fun path ↦
  if path = taskPath "00-m" "00-s" "00-t" then some content else none

/-- The fields of a block of the package that writes lines. -/
theorem blockFields_lineYaml {content : String} {block : List Char}
    {entries : List (String × YamlValue)} (hblock : frontmatterBlock content.toList = some block)
    (hentries : LineYaml.blockOf block = entries) :
    LineYaml.package.blockFields content = some (.ofEntries entries) := by
  have hparse : LineYaml.package.parse (String.ofList block) = some (some (.ofEntries entries)) := by
    simp only [← hentries, LineYaml.package, String.toList_ofList]
  exact YamlPackage.blockFields_of_parse hblock hparse

/-- The update that the auto-executor makes when it starts a plan task. -/
def activated : PlanTaskChanges := { status := some (.string "active") }

/-- A plan task whose keys are all known. -/
def plainTask : String := "---\ntitle: Fix\nmodel: opus\n---\n\nText\n"

/-- It keeps its title, its model and its text when its status is set. -/
theorem updates_frames_iff_plainTask :
    Frames LineYaml.package plainTask activated.entries activated.description
      (Fails ((oneTask plainTask).updatePlanTask LineYaml.package "00-m" "00-s" "00-t" activated
        someDay))
      (storeAfter (oneTask plainTask) ((oneTask plainTask).updatePlanTask LineYaml.package "00-m"
        "00-s" "00-t" activated someDay) (taskPath "00-m" "00-s" "00-t")) := by
  refine ((updates_frames_iff LineYaml.package someDay).1 (oneTask plainTask) "00-m" "00-s" "00-t"
    plainTask activated rfl).mpr fun _ ↦ ?_
  have hfields : LineYaml.package.blockFields plainTask =
      some (.ofEntries [("title", .string "Fix"), ("model", .string "opus")]) :=
    blockFields_lineYaml (by decide +kernel : _ = some "title: Fix\nmodel: opus".toList)
      (by decide +kernel)
  refine ⟨_, hfields, fun key value hvalue _ _ ↦ ?_⟩
  rw [Frontmatter.ofEntries, JsMap.lookup_entry, JsMap.lookup_entry] at hvalue
  split at hvalue
  · next hkey =>
    cases hvalue
    exact ⟨by rw [hkey]; decide, by simp⟩
  · split at hvalue
    · next hkey =>
      cases hvalue
      exact ⟨by rw [hkey]; decide, by simp⟩
    · cases hvalue

/-- A plan task with a key of its author's. -/
def ownedTask : String := "---\ntitle: Fix\nowner: ann\n---\n\nText\n"

/-- It loses the key when its status is set. -/
theorem not_updatePlanTask_frames :
    ¬ Frames LineYaml.package ownedTask activated.entries activated.description
      (Fails ((oneTask ownedTask).updatePlanTask LineYaml.package "00-m" "00-s" "00-t" activated
        someDay))
      (storeAfter (oneTask ownedTask) ((oneTask ownedTask).updatePlanTask LineYaml.package "00-m"
        "00-s" "00-t" activated someDay) (taskPath "00-m" "00-s" "00-t")) := by
  have hfields : LineYaml.package.blockFields ownedTask =
      some (.ofEntries [("title", .string "Fix"), ("owner", .string "ann")]) :=
    blockFields_lineYaml (by decide +kernel : _ = some "title: Fix\nowner: ann".toList)
      (by decide +kernel)
  intro hframes
  obtain ⟨fm, hfm, hkeys⟩ := (updatePlanTask_frames rfl activated).mp hframes
    (by decide +kernel)
  rw [hfields] at hfm
  cases hfm
  have howner := (hkeys "owner" (.string "ann") (by decide +kernel) (by decide) (by decide)).1
  exact absurd howner (by decide)

end Flockctl.Plan
