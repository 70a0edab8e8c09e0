import Flockctl.Collections.Fallible
import Flockctl.Collections.JsMap
import Flockctl.Plan.Markdown
import Flockctl.Plan.Status
import Mathlib.Data.List.Sort

/-!
# The plan tree of a project

A plan directory holds milestone directories, these hold slice directories, and these hold the
files of the plan tasks. Everybody may edit the tree, so any directory can lack its own file, any
file can be unreadable and any name can be unsafe. The listing functions drop a directory without
its file, and throw on the first file they cannot accept; for plan tasks they first filter the
files that carry a YAML block.
-/

namespace Flockctl.Plan

open Collections

/-- A slice directory: its files, under their names. -/
abbrev SliceDir := JsMap String MdFile

/-- `slice.md`, the file of the slice itself. -/
def SliceDir.sliceMd (dir : SliceDir) : Option MdFile := dir.get "slice.md"

/-- A milestone directory: `milestone.md` and the directories in it. -/
structure MilestoneDir where
  milestoneMd : Option MdFile := none
  slices : JsMap String SliceDir := JsMap.empty

/-- The directory `getPlanDir` names. -/
abbrev PlanDir := JsMap String MilestoneDir

def isSlugLetter (c : Char) : Bool := ('a' ≤ c && c ≤ 'z') || ('0' ≤ c && c ≤ '9')

/-- `/^[a-z0-9][a-z0-9._\-]*$/`. -/
def matchesSlug : List Char → Bool
  | [] => false
  | c :: rest => isSlugLetter c && rest.all fun d ↦ isSlugLetter d || d == '.' || d == '_' || d == '-'

/-- `slug.includes("..") || slug.includes("\0")`. -/
def climbs (slug : List Char) : Bool := decide (['.', '.'] <:+: slug) || slug.contains '\x00'

def assertSafePlanSlug (slug kind : String) : Except String Unit :=
  if slug.toList = [] then .error ("Invalid " ++ kind ++ ": must be a non-empty string")
  else if !matchesSlug slug.toList then
    .error ("Invalid " ++ kind ++ ": must match [a-z0-9][a-z0-9._\\-]*")
  else if climbs slug.toList then
    .error ("Invalid " ++ kind ++ ": must not contain '..' or NUL bytes")
  else .ok ()

/-- A slug that `assertSafePlanSlug` accepts. -/
def isSafePlanSlug (slug : String) : Bool := matchesSlug slug.toList && !climbs slug.toList

theorem assertSafePlanSlug_eq_ok_iff (slug kind : String) :
    assertSafePlanSlug slug kind = .ok () ↔ isSafePlanSlug slug = true := by
  unfold assertSafePlanSlug isSafePlanSlug
  cases hslug : slug.toList with
  | nil => simp [matchesSlug]
  | cons c rest =>
    cases hmatches : matchesSlug (c :: rest) <;> cases hclimbs : climbs (c :: rest) <;> simp

/-- `MISSION_ID_REGEX.test(raw)`. -/
def matchesMissionId (raw : List Char) : Bool :=
  decide (8 ≤ raw.length) && decide (raw.length ≤ 40) && raw.all fun c ↦
    ('a' ≤ c && c ≤ 'f') || ('A' ≤ c && c ≤ 'F') || ('0' ≤ c && c ≤ '9')

def parseMissionId : Option YamlValue → Except String (Option String)
  | none | some .null => .ok none
  | some (.string raw) =>
    if matchesMissionId raw.toList then .ok (some raw)
    else .error ("mission_id \"" ++ raw ++ "\" does not match /^[a-f0-9]\x7b8,40\x7d$/i")
  | some value => .error ("mission_id must be a string, got " ++ value.typeOf)

/-- `fm.status ?? "pending"` of a plan task; a value that is no string equals no status. -/
def PlanTaskStatus.ofField : Option YamlValue → PlanTaskStatus
  | none | some .null | some (.string "pending") => .pending
  | some (.string "active") => .active
  | some (.string "completed") => .completed
  | some (.string "failed") => .failed
  | some (.string value) => .other value
  | some value => .other value.typeOf

def PlanTaskStatus.text : PlanTaskStatus → String
  | .pending => "pending"
  | .active => "active"
  | .completed => "completed"
  | .failed => "failed"
  | .other value => value

/-- `fm.status ?? "pending"` of a slice. -/
def SliceStatus.ofField : Option YamlValue → SliceStatus
  | none | some .null | some (.string "pending") => .pending
  | some (.string "planning") => .planning
  | some (.string "active") => .active
  | some (.string "verifying") => .verifying
  | some (.string "merging") => .merging
  | some (.string "completed") => .completed
  | some (.string "skipped") => .skipped
  | some (.string "failed") => .failed
  | some (.string value) => .other value
  | some value => .other value.typeOf

def SliceStatus.text : SliceStatus → String
  | .pending => "pending"
  | .planning => "planning"
  | .active => "active"
  | .verifying => "verifying"
  | .merging => "merging"
  | .completed => "completed"
  | .skipped => "skipped"
  | .failed => "failed"
  | .other value => value

/-- `MilestoneData`, as far as its readers here use it. -/
structure MilestoneData where
  slug : String
  status : Option YamlValue
  missionId : Option String
  deriving DecidableEq, Repr

/-- `SliceData`, likewise. -/
structure SliceData where
  slug : String
  status : SliceStatus
  deriving DecidableEq, Repr

/-- `PlanTaskData`, likewise. -/
structure PlanTaskData where
  slug : String
  status : PlanTaskStatus
  executionTaskId : Option YamlValue
  deriving DecidableEq, Repr

def milestoneFromFile (slug : String) (fm : Frontmatter) : Except String MilestoneData := do
  let missionId ← parseMissionId (fm "mission_id")
  return { slug := slug, status := fm "status", missionId := missionId }

def sliceFromFile (slug : String) (fm : Frontmatter) : Except String SliceData :=
  .ok { slug := slug, status := .ofField (fm "status") }

def taskFromFile (slug : String) (fm : Frontmatter) : PlanTaskData :=
  { slug := slug, status := .ofField (fm "status"), executionTaskId := fm "execution_task_id" }

/-- `task.executionTaskId === taskId`. -/
def PlanTaskData.pointsAt (task : PlanTaskData) (taskId : ℕ) : Bool :=
  task.executionTaskId == some (.number taskId)

/-- `sortedDirs`: the names of the subdirectories. -/
def sortedDirs {Dir : Type} (parent : JsMap String Dir) : List String :=
  parent.keys.insertionSort (· ≤ ·)

/-- `e.name.endsWith(".md") && e.name !== "slice.md"`. -/
def isTaskFileName (name : String) : Bool :=
  ['.', 'm', 'd'].isSuffixOf name.toList && name != "slice.md"

/-- `filename.replace(/\.md$/, "")` of a task file. -/
def taskSlugOf (name : String) : String := String.ofList (name.toList.take (name.toList.length - 3))

def sortedMdFiles (dir : SliceDir) : List String :=
  ((dir.keys.filter isTaskFileName).insertionSort (· ≤ ·)).filter fun name ↦
    (dir.get name).any (·.isListed)

section

variable {Dir Record : Type} (own : Dir → Option MdFile)
  (fromFile : String → Frontmatter → Except String Record)

/-- What a listing of directories makes of one of them: nothing where its own file is missing. -/
def dirEntry (parent : JsMap String Dir) (slug : String) : Except String (Option Record) :=
  match (parent.get slug).bind own with
  | none => .ok none
  | some file => ((file.read).bind (fromFile slug)).map some

/-- `dirs.map(…).filter(Boolean)`, over the directories whose own file is `own`. -/
def listDirs (parent : JsMap String Dir) : Except String (List Record) :=
  ((sortedDirs parent).mapM (dirEntry own fromFile parent)).map List.reduceOption

end

def listMilestones (plan : PlanDir) : Except String (List MilestoneData) :=
  listDirs (·.milestoneMd) milestoneFromFile plan

/-- The directory under a milestone slug; `sortedDirs` sees a missing one as empty. -/
def milestoneDir (plan : PlanDir) (milestoneSlug : String) : MilestoneDir :=
  (plan.get milestoneSlug).getD {}

def listSlices (plan : PlanDir) (milestoneSlug : String) : Except String (List SliceData) := do
  assertSafePlanSlug milestoneSlug "milestone slug"
  listDirs SliceDir.sliceMd sliceFromFile (milestoneDir plan milestoneSlug).slices

/-- The directory under a slice slug; `sortedMdFiles` sees a missing one as empty. -/
def sliceDir (plan : PlanDir) (milestoneSlug sliceSlug : String) : SliceDir :=
  ((milestoneDir plan milestoneSlug).slices.get sliceSlug).getD JsMap.empty

/-- The entry of `listPlanTasks` for one file. -/
def taskEntry (dir : SliceDir) (name : String) : Except String (Option PlanTaskData) :=
  match dir.get name with
  | none => .ok none
  | some file => (file.read).map fun fm ↦ some (taskFromFile (taskSlugOf name) fm)

def listPlanTasks (plan : PlanDir) (milestoneSlug sliceSlug : String) :
    Except String (List PlanTaskData) := do
  assertSafePlanSlug milestoneSlug "milestone slug"
  assertSafePlanSlug sliceSlug "slice slug"
  let dir := sliceDir plan milestoneSlug sliceSlug
  ((sortedMdFiles dir).mapM (taskEntry dir)).map List.reduceOption

end Flockctl.Plan
