import Flockctl.Collections.JsInteger
import Flockctl.Plan.Files
import Flockctl.Plan.FrameKept

/-!
# Creating plan entities in a plan directory

The plan directory holds a directory for each milestone, that holds one for each slice, and a slice
directory holds a file for each plan task. A new entity gets the slug of its order and its title,
numbered when something has the name, and its order follows that of the last name unless one is
given. Orders are doubles.
-/

namespace Flockctl.Plan

open Collections

/-- `parseOrder`, as the number it returns. -/
def orderNumber (slug : String) : ℕ := doubleOf (parseOrder slug)

/-- `nextOrder` among entries with these sorted names, as the number it returns. -/
def nextOrderNumber (names : List String) : ℕ :=
  match names.getLast? with
  | none => 0
  | some last => doubleOf (orderNumber last + 1)

/-- The order that a number of the language is. -/
def PlanOrder.ofNumber (number : ℕ) : PlanOrder :=
  if number < 2 ^ 53 then .integer number else .fraction (numberText number)

/-- `data.order ?? nextOrder(…)`. -/
def orderOr (order : Option PlanOrder) (names : List String) : PlanOrder :=
  match order with
  | none | some .null => .ofNumber (nextOrderNumber names)
  | some given => given

/-- `data.title ?? fallback`, which `slugify` trims: it throws on what is no text. -/
def titleOr (title : Option YamlValue) (fallback : String) : Except String String :=
  match title with
  | none | some .null => .ok fallback
  | some (.string title) => .ok title
  | some _ => .error "name.trim is not a function"

/-- What a directory entry can have for a name, in bytes. -/
def NAME_MAX : ℕ := 255

/-- A directory: the texts of its files, its directories, and the names of the other entries. -/
structure Folder (Sub : Type) where
  files : JsMap String String := JsMap.empty
  dirs : JsMap String Sub := JsMap.empty
  others : List String := []

namespace Folder

variable {Sub : Type}

def names (dir : Folder Sub) : List String := dir.files.keys ++ dir.dirs.keys ++ dir.others

/-- `existsSync(join(dir, name))`. -/
def has (dir : Folder Sub) (name : String) : Bool := dir.names.contains name

def setDir (dir : Folder Sub) (name : String) (sub : Sub) : Folder Sub :=
  { dir with dirs := dir.dirs.set name sub }

/-- A rename replaces what has the name, unless that is a directory. -/
def setFile (dir : Folder Sub) (name text : String) : Folder Sub :=
  { dir with files := dir.files.set name text, others := dir.others.filter (· ≠ name) }

/-- `rmSync(join(dir, name), { recursive: true, force: true })`. -/
def remove (dir : Folder Sub) (name : String) : Folder Sub where
  files := dir.files.delete name
  dirs := dir.dirs.delete name
  others := dir.others.filter (· ≠ name)

/-- `parseMd(join(dir, name))` reads the text, unless `!existsSync(join(dir, name))`. -/
def readText (dir : Folder Sub) (name : String) : Except String (Option String) :=
  match dir.files.get name with
  | some text => .ok (some text)
  | none => if dir.has name then .error "EISDIR: illegal operation on a directory, read" else .ok none

/-- `writeFileAtomic`, whose temporary file has the name of the file, a dot, twelve digits and
`.tmp`. -/
def writeFileAtomic (dir : Folder Sub) (name text : String) : Except String (Folder Sub) :=
  if NAME_MAX < name.utf8ByteSize + 17 then .error "ENAMETOOLONG: name too long, open"
  else if dir.dirs.has name then .error "EISDIR: illegal operation on a directory, rename"
  else .ok (dir.setFile name text)

/-- The directory under a name; nothing exists in a missing one. -/
def sub (dir : Folder (Folder Sub)) (name : String) : Folder Sub := (dir.dirs.get name).getD {}

def ensureDir (dir : Folder (Folder Sub)) (name : String) : Except String (Folder (Folder Sub)) :=
  if dir.has name then .ok dir
  else if NAME_MAX < name.utf8ByteSize then .error "ENAMETOOLONG: name too long, mkdir"
  else .ok (dir.setDir name {})

/-- `sortedMdFiles`. -/
def sortedMdFiles (dir : Folder Sub) : List String :=
  ((dir.files.keys.filter isTaskFileName).insertionSort (· ≤ ·)).filter fun name ↦
    (dir.files.get name).any hasYamlFrontmatter

/-- The slugs that a Markdown file of some kind has. -/
def mdSlugs (dir : Folder Sub) : List String :=
  (dir.names.filter fun name ↦ ['.', 'm', 'd'].isSuffixOf name.toList).map taskSlugOf

/-- The name and the order that a new directory gets. -/
def newDir (dir : Folder Sub) (order : Option PlanOrder) (title : String) : String × PlanOrder :=
  let order := orderOr order (sortedDirs dir.dirs)
  (firstFree dir.names (toSlug order title), order)

/-- The slug and the order that a new plan task gets. -/
def newMd (dir : Folder Sub) (order : Option PlanOrder) (title : String) : String × PlanOrder :=
  let order := orderOr order dir.sortedMdFiles
  (firstFree dir.mdSlugs (toSlug order title), order)

/-- A new directory with the file of its entity. -/
def createDir (dir : Folder (Folder Sub)) (slug own text : String) :
    Except String (Folder (Folder Sub)) := do
  let made ← dir.ensureDir slug
  let entity ← (made.sub slug).writeFileAtomic own text
  return made.setDir slug entity

end Folder

abbrev SliceFolder := Folder Unit

abbrev PlanFolder := Folder (Folder SliceFolder)

/-- `assertSafePlanSlug` of the slugs of a plan task and of what it stands in. -/
def assertSafeTaskSlugs (milestoneSlug sliceSlug slug : String) : Except String Unit := do
  assertSafePlanSlug milestoneSlug "milestone slug"
  assertSafePlanSlug sliceSlug "slice slug"
  assertSafePlanSlug slug "task slug"

namespace YamlPackage

variable (package : YamlPackage)

def readSlice (milestoneSlug slug content : String) : Slice :=
  Slice.fromFile slug milestoneSlug (parseMd package.parse content) (mdBody content)

def sliceText (s : Slice) : String := package.mdContent s.toFrontmatter (s.description.getD "")

def readTask (milestoneSlug sliceSlug slug content : String) : PlanTask :=
  PlanTask.fromFile slug milestoneSlug sliceSlug (parseMd package.parse content) (mdBody content)

def taskText (t : PlanTask) : String := package.mdContent t.toFrontmatter (t.description.getD "")

end YamlPackage

namespace PlanFolder

variable (package : YamlPackage) (plan : PlanFolder)

def getMilestone (slug : String) : Except String (Option Milestone) := do
  assertSafePlanSlug slug "milestone slug"
  match ← (plan.sub slug).readText "milestone.md" with
  | none => return none
  | some content => return some (← package.readMilestone slug content)

def createMilestone (data : MilestoneChanges) (now : Timestamp) :
    Except String (PlanFolder × Milestone) := do
  let title ← titleOr data.title "milestone"
  let (slug, order) := plan.newDir data.order title
  let full := data.full slug order now
  return (← plan.createDir slug "milestone.md" (package.milestoneText full), full)

def updateMilestone (slug : String) (data : MilestoneChanges) (now : Timestamp) :
    Except String (PlanFolder × Milestone) := do
  assertSafePlanSlug slug "milestone slug"
  match ← plan.getMilestone package slug with
  | none => .error ("Milestone not found: " ++ slug)
  | some existing =>
    let merged := existing.merge data now
    let dir ← (plan.sub slug).writeFileAtomic "milestone.md" (package.milestoneText merged)
    return (plan.setDir slug dir, merged)

def deleteMilestone (slug : String) : Except String PlanFolder := do
  assertSafePlanSlug slug "milestone slug"
  if !plan.has slug then .error ("Milestone not found: " ++ slug)
  else return plan.remove slug

def getSlice (milestoneSlug slug : String) : Except String (Option Slice) := do
  assertSafePlanSlug milestoneSlug "milestone slug"
  assertSafePlanSlug slug "slice slug"
  return (← ((plan.sub milestoneSlug).sub slug).readText "slice.md").map
    (package.readSlice milestoneSlug slug)

def createSlice (milestoneSlug : String) (data : SliceChanges) (now : Timestamp) :
    Except String (PlanFolder × Slice) := do
  assertSafePlanSlug milestoneSlug "milestone slug"
  let dir := plan.sub milestoneSlug
  if !dir.has "milestone.md" then .error ("Milestone not found: " ++ milestoneSlug)
  else
    let title ← titleOr data.title "slice"
    let (slug, order) := dir.newDir data.order title
    let full := data.full milestoneSlug slug order now
    let after ← dir.createDir slug "slice.md" (package.sliceText full)
    return (plan.setDir milestoneSlug after, full)

def updateSlice (milestoneSlug slug : String) (data : SliceChanges) (now : Timestamp) :
    Except String (PlanFolder × Slice) := do
  match ← plan.getSlice package milestoneSlug slug with
  | none => .error ("Slice not found: " ++ slug)
  | some existing =>
    let merged := existing.merge data now
    let parent := plan.sub milestoneSlug
    let dir ← (parent.sub slug).writeFileAtomic "slice.md" (package.sliceText merged)
    return (plan.setDir milestoneSlug (parent.setDir slug dir), merged)

def deleteSlice (milestoneSlug slug : String) : Except String PlanFolder := do
  assertSafePlanSlug milestoneSlug "milestone slug"
  assertSafePlanSlug slug "slice slug"
  let dir := plan.sub milestoneSlug
  if !dir.has slug then .error ("Slice not found: " ++ slug)
  else return plan.setDir milestoneSlug (dir.remove slug)

/-- The plan with another content of a slice directory. -/
def setSlice (milestoneSlug sliceSlug : String) (dir : SliceFolder) : PlanFolder :=
  plan.setDir milestoneSlug ((plan.sub milestoneSlug).setDir sliceSlug dir)

def getPlanTask (milestoneSlug sliceSlug slug : String) : Except String (Option PlanTask) := do
  assertSafeTaskSlugs milestoneSlug sliceSlug slug
  return (← ((plan.sub milestoneSlug).sub sliceSlug).readText (taskFileName slug)).map
    (package.readTask milestoneSlug sliceSlug slug)

def createPlanTask (milestoneSlug sliceSlug : String) (data : PlanTaskChanges) (now : Timestamp) :
    Except String (PlanFolder × PlanTask) := do
  assertSafePlanSlug milestoneSlug "milestone slug"
  assertSafePlanSlug sliceSlug "slice slug"
  let dir := (plan.sub milestoneSlug).sub sliceSlug
  if !dir.has "slice.md" then .error ("Slice not found: " ++ sliceSlug)
  else
    let title ← titleOr data.title "task"
    let (slug, order) := dir.newMd data.order title
    let full := data.full milestoneSlug sliceSlug slug order now
    let after ← dir.writeFileAtomic (taskFileName slug) (package.taskText full)
    return (plan.setSlice milestoneSlug sliceSlug after, full)

def updatePlanTask (milestoneSlug sliceSlug slug : String) (data : PlanTaskChanges)
    (now : Timestamp) : Except String (PlanFolder × PlanTask) := do
  match ← plan.getPlanTask package milestoneSlug sliceSlug slug with
  | none => .error ("Plan task not found: " ++ slug)
  | some existing =>
    let merged := existing.merge data now
    let dir := (plan.sub milestoneSlug).sub sliceSlug
    let after ← dir.writeFileAtomic (taskFileName slug) (package.taskText merged)
    return (plan.setSlice milestoneSlug sliceSlug after, merged)

def deletePlanTask (milestoneSlug sliceSlug slug : String) : Except String PlanFolder := do
  assertSafeTaskSlugs milestoneSlug sliceSlug slug
  let dir := (plan.sub milestoneSlug).sub sliceSlug
  if !dir.has (taskFileName slug) then .error ("Plan task not found: " ++ slug)
  else if dir.dirs.has (taskFileName slug) then .error "Path is a directory: rm returned EISDIR"
  else return plan.setSlice milestoneSlug sliceSlug (dir.remove (taskFileName slug))

end PlanFolder

/-- A call that creates an entity, and the time it is made at. -/
inductive PlanCall
  | createMilestone (data : MilestoneChanges) (now : Timestamp)
  | createSlice (milestoneSlug : String) (data : SliceChanges) (now : Timestamp)
  | createPlanTask (milestoneSlug sliceSlug : String) (data : PlanTaskChanges) (now : Timestamp)

/-- The plan directory after a call; one that throws leaves it as it is. -/
def PlanFolder.step (package : YamlPackage) (plan : PlanFolder) : PlanCall → PlanFolder
  | .createMilestone data now => storeAfter plan (plan.createMilestone package data now)
  | .createSlice milestoneSlug data now =>
      storeAfter plan (plan.createSlice package milestoneSlug data now)
  | .createPlanTask milestoneSlug sliceSlug data now =>
      storeAfter plan (plan.createPlanTask package milestoneSlug sliceSlug data now)

end Flockctl.Plan
