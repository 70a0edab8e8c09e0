import Flockctl.Plan.Milestones

/-!
# Plan tasks and slices with all their fields

The files of plan tasks and slices as texts. Updating one reads the text into the record, puts the
fields of the update over it and writes the record anew. A record knows the keys of its table; a
block is written as the values at these keys, and read back as these.
-/

namespace Flockctl.Plan

open Collections

/-- `PlanTaskData` -/
structure PlanTask where
  slug : String
  milestoneSlug : String
  sliceSlug : String
  title : YamlValue
  status : YamlValue
  order : YamlValue
  model : Option YamlValue := none
  estimate : Option YamlValue := none
  files : Option YamlValue := none
  verify : Option YamlValue := none
  depends : Option YamlValue := none
  inputs : Option YamlValue := none
  expectedOutput : Option YamlValue := none
  executionTaskId : Option YamlValue := none
  output : Option YamlValue := none
  summary : Option YamlValue := none
  verificationPassed : Option YamlValue := none
  verificationOutput : Option YamlValue := none
  failureModes : Option YamlValue := none
  negativeTests : Option YamlValue := none
  observabilityImpact : Option YamlValue := none
  description : Option String := none
  createdAt : Option YamlValue := none
  updatedAt : Option YamlValue := none
  deriving DecidableEq

/-- `Partial<PlanTaskData>`; the slugs and the date of the update are never taken from it. -/
structure PlanTaskChanges where
  title : Option YamlValue := none
  status : Option YamlValue := none
  order : Option PlanOrder := none
  model : Option YamlValue := none
  estimate : Option YamlValue := none
  files : Option YamlValue := none
  verify : Option YamlValue := none
  depends : Option YamlValue := none
  inputs : Option YamlValue := none
  expectedOutput : Option YamlValue := none
  executionTaskId : Option YamlValue := none
  output : Option YamlValue := none
  summary : Option YamlValue := none
  verificationPassed : Option YamlValue := none
  verificationOutput : Option YamlValue := none
  failureModes : Option YamlValue := none
  negativeTests : Option YamlValue := none
  observabilityImpact : Option YamlValue := none
  description : Option String := none
  createdAt : Option YamlValue := none

/-- `body || undefined` -/
def bodyOrNone (body : String) : Option String := if body = "" then none else some body

/-- `taskFromFile` -/
def PlanTask.fromFile (slug milestoneSlug sliceSlug : String) (fm : Frontmatter) (body : String) :
    PlanTask where
  slug := slug
  milestoneSlug := milestoneSlug
  sliceSlug := sliceSlug
  title := orElse (fm "title") (.string slug)
  status := orElse (fm "status") (.string "pending")
  order := orElse (fm "order") (.number (parseOrder slug))
  model := fm "model"
  estimate := fm "estimate"
  files := fm "files"
  verify := fm "verify"
  depends := fm "depends"
  inputs := fm "inputs"
  expectedOutput := fm "expected_output"
  executionTaskId := fm "execution_task_id"
  output := fm "output"
  summary := fm "summary"
  verificationPassed := fm "verification_passed"
  verificationOutput := fm "verification_output"
  failureModes := fm "failure_modes"
  negativeTests := fm "negative_tests"
  observabilityImpact := fm "observability_impact"
  description := bodyOrNone body
  createdAt := fm "created_at"
  updatedAt := fm "updated_at"

/-- `taskToFrontmatter` -/
def PlanTask.toFrontmatter (t : PlanTask) : List (String × Option YamlValue) :=
  [("title", some t.title),
    ("status", some t.status),
    ("order", some t.order),
    ("model", t.model),
    ("estimate", t.estimate),
    ("files", t.files),
    ("verify", t.verify),
    ("depends", t.depends),
    ("inputs", t.inputs),
    ("expected_output", t.expectedOutput),
    ("execution_task_id", t.executionTaskId),
    ("output", t.output),
    ("summary", t.summary),
    ("verification_passed", t.verificationPassed),
    ("verification_output", t.verificationOutput),
    ("failure_modes", t.failureModes),
    ("negative_tests", t.negativeTests),
    ("observability_impact", t.observabilityImpact),
    ("created_at", t.createdAt),
    ("updated_at", t.updatedAt)]

/-- The record `createPlanTask` writes. -/
def PlanTaskChanges.full (data : PlanTaskChanges) (milestoneSlug sliceSlug slug : String)
    (order : PlanOrder) (now : Timestamp) : PlanTask where
  slug := slug
  milestoneSlug := milestoneSlug
  sliceSlug := sliceSlug
  title := orElse data.title (.string "Untitled Task")
  status := orElse data.status (.string "pending")
  order := order.value
  model := data.model
  estimate := data.estimate
  files := data.files
  verify := data.verify
  depends := data.depends
  inputs := data.inputs
  expectedOutput := data.expectedOutput
  executionTaskId := data.executionTaskId
  output := data.output
  summary := data.summary
  verificationPassed := data.verificationPassed
  verificationOutput := data.verificationOutput
  failureModes := data.failureModes
  negativeTests := data.negativeTests
  observabilityImpact := data.observabilityImpact
  description := data.description
  createdAt := some (.string now.text)
  updatedAt := some (.string now.text)

/-- The record `updatePlanTask` writes. -/
def PlanTask.merge (existing : PlanTask) (data : PlanTaskChanges) (now : Timestamp) : PlanTask where
  slug := existing.slug
  milestoneSlug := existing.milestoneSlug
  sliceSlug := existing.sliceSlug
  title := data.title.getD existing.title
  status := data.status.getD existing.status
  order := (data.order.map PlanOrder.value).getD existing.order
  model := data.model.or existing.model
  estimate := data.estimate.or existing.estimate
  files := data.files.or existing.files
  verify := data.verify.or existing.verify
  depends := data.depends.or existing.depends
  inputs := data.inputs.or existing.inputs
  expectedOutput := data.expectedOutput.or existing.expectedOutput
  executionTaskId := data.executionTaskId.or existing.executionTaskId
  output := data.output.or existing.output
  summary := data.summary.or existing.summary
  verificationPassed := data.verificationPassed.or existing.verificationPassed
  verificationOutput := data.verificationOutput.or existing.verificationOutput
  failureModes := data.failureModes.or existing.failureModes
  negativeTests := data.negativeTests.or existing.negativeTests
  observabilityImpact := data.observabilityImpact.or existing.observabilityImpact
  description := data.description.or existing.description
  createdAt := data.createdAt.or existing.createdAt
  updatedAt := some (.string now.text)

/-- `SliceData` -/
structure Slice where
  slug : String
  milestoneSlug : String
  title : YamlValue
  status : YamlValue
  order : YamlValue
  risk : Option YamlValue := none
  depends : Option YamlValue := none
  goal : Option YamlValue := none
  demo : Option YamlValue := none
  successCriteria : Option YamlValue := none
  proofLevel : Option YamlValue := none
  integrationClosure : Option YamlValue := none
  observabilityImpact : Option YamlValue := none
  threatSurface : Option YamlValue := none
  description : Option String := none
  createdAt : Option YamlValue := none
  updatedAt : Option YamlValue := none
  deriving DecidableEq

/-- `Partial<SliceData>`; the slugs and the date of the update are never taken from it. -/
structure SliceChanges where
  title : Option YamlValue := none
  status : Option YamlValue := none
  order : Option PlanOrder := none
  risk : Option YamlValue := none
  depends : Option YamlValue := none
  goal : Option YamlValue := none
  demo : Option YamlValue := none
  successCriteria : Option YamlValue := none
  proofLevel : Option YamlValue := none
  integrationClosure : Option YamlValue := none
  observabilityImpact : Option YamlValue := none
  threatSurface : Option YamlValue := none
  description : Option String := none
  createdAt : Option YamlValue := none

/-- `sliceFromFile` -/
def Slice.fromFile (slug milestoneSlug : String) (fm : Frontmatter) (body : String) : Slice where
  slug := slug
  milestoneSlug := milestoneSlug
  title := orElse (fm "title") (.string slug)
  status := orElse (fm "status") (.string "pending")
  order := orElse (fm "order") (.number (parseOrder slug))
  risk := fm "risk"
  depends := fm "depends"
  goal := fm "goal"
  demo := fm "demo"
  successCriteria := fm "success_criteria"
  proofLevel := fm "proof_level"
  integrationClosure := fm "integration_closure"
  observabilityImpact := fm "observability_impact"
  threatSurface := fm "threat_surface"
  description := bodyOrNone body
  createdAt := fm "created_at"
  updatedAt := fm "updated_at"

/-- `sliceToFrontmatter` -/
def Slice.toFrontmatter (s : Slice) : List (String × Option YamlValue) :=
  [("title", some s.title),
    ("status", some s.status),
    ("order", some s.order),
    ("risk", s.risk),
    ("depends", s.depends),
    ("goal", s.goal),
    ("demo", s.demo),
    ("success_criteria", s.successCriteria),
    ("proof_level", s.proofLevel),
    ("integration_closure", s.integrationClosure),
    ("observability_impact", s.observabilityImpact),
    ("threat_surface", s.threatSurface),
    ("created_at", s.createdAt),
    ("updated_at", s.updatedAt)]

/-- The record `createSlice` writes. -/
def SliceChanges.full (data : SliceChanges) (milestoneSlug slug : String) (order : PlanOrder)
    (now : Timestamp) : Slice where
  slug := slug
  milestoneSlug := milestoneSlug
  title := orElse data.title (.string "Untitled Slice")
  status := orElse data.status (.string "pending")
  order := order.value
  risk := data.risk
  depends := data.depends
  goal := data.goal
  demo := data.demo
  successCriteria := data.successCriteria
  proofLevel := data.proofLevel
  integrationClosure := data.integrationClosure
  observabilityImpact := data.observabilityImpact
  threatSurface := data.threatSurface
  description := data.description
  createdAt := some (.string now.text)
  updatedAt := some (.string now.text)

/-- The record `updateSlice` writes. -/
def Slice.merge (existing : Slice) (data : SliceChanges) (now : Timestamp) : Slice where
  slug := existing.slug
  milestoneSlug := existing.milestoneSlug
  title := data.title.getD existing.title
  status := data.status.getD existing.status
  order := (data.order.map PlanOrder.value).getD existing.order
  risk := data.risk.or existing.risk
  depends := data.depends.or existing.depends
  goal := data.goal.or existing.goal
  demo := data.demo.or existing.demo
  successCriteria := data.successCriteria.or existing.successCriteria
  proofLevel := data.proofLevel.or existing.proofLevel
  integrationClosure := data.integrationClosure.or existing.integrationClosure
  observabilityImpact := data.observabilityImpact.or existing.observabilityImpact
  threatSurface := data.threatSurface.or existing.threatSurface
  description := data.description.or existing.description
  createdAt := data.createdAt.or existing.createdAt
  updatedAt := some (.string now.text)

/-- The texts of the files below the plan directory, by the names on the way to them. -/
abbrev PlanTexts := List String → Option String

/-- `join(planDir, milestoneSlug, sliceSlug, …)` -/
def taskPath (milestoneSlug sliceSlug slug : String) : List String :=
  [milestoneSlug, sliceSlug, slug ++ ".md"]

def slicePath (milestoneSlug slug : String) : List String := [milestoneSlug, slug, "slice.md"]

namespace PlanTexts

variable (package : YamlPackage) (files : PlanTexts)

def getPlanTask (milestoneSlug sliceSlug slug : String) : Except String (Option PlanTask) := do
  assertSafePlanSlug milestoneSlug "milestone slug"
  assertSafePlanSlug sliceSlug "slice slug"
  assertSafePlanSlug slug "task slug"
  return (files (taskPath milestoneSlug sliceSlug slug)).map fun content ↦
    PlanTask.fromFile slug milestoneSlug sliceSlug (parseMd package.parse content) (mdBody content)

def getSlice (milestoneSlug slug : String) : Except String (Option Slice) := do
  assertSafePlanSlug milestoneSlug "milestone slug"
  assertSafePlanSlug slug "slice slug"
  return (files (slicePath milestoneSlug slug)).map fun content ↦
    Slice.fromFile slug milestoneSlug (parseMd package.parse content) (mdBody content)

/-- `writeMd(path, …)`, which replaces the file as a whole. -/
def writeMd (path : List String) (frontmatter : List (String × Option YamlValue)) (body : String) :
    PlanTexts :=
  Function.update files path (some (package.mdContent frontmatter body))

/-- `updatePlanTask` without its rows in the execution index, which a failure does not reach. -/
def updatePlanTask (milestoneSlug sliceSlug slug : String) (data : PlanTaskChanges)
    (now : Timestamp) : Except String (PlanTexts × PlanTask) := do
  match ← files.getPlanTask package milestoneSlug sliceSlug slug with
  | none => .error ("Plan task not found: " ++ slug)
  | some existing =>
    let merged := existing.merge data now
    return (files.writeMd package (taskPath milestoneSlug sliceSlug slug) merged.toFrontmatter
      (merged.description.getD ""), merged)

def updateSlice (milestoneSlug slug : String) (data : SliceChanges) (now : Timestamp) :
    Except String (PlanTexts × Slice) := do
  match ← files.getSlice package milestoneSlug slug with
  | none => .error ("Slice not found: " ++ slug)
  | some existing =>
    let merged := existing.merge data now
    return (files.writeMd package (slicePath milestoneSlug slug) merged.toFrontmatter
      (merged.description.getD ""), merged)

end PlanTexts

end Flockctl.Plan
