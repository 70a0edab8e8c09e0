import Flockctl.FileEdits.LineDiff
import Flockctl.StateMachines.DiffReader
import Mathlib.Data.List.ModifyLast

/-!
# The decoder of the review pane

The text of a diff is taken apart into files with hunks. A line is told by how it begins, whether it
stands in a hunk or not, and the lengths in the header of a hunk are not read. The hunks are then
put on two sides for an editor.
-/

namespace Flockctl.FileEdits

open Collections

inductive LineKind
  | add
  | remove
  | context
  | noeol
  deriving DecidableEq, Repr

structure DiffLine where
  kind : LineKind
  text : List Char
  oldNo : Option ℕ := none
  newNo : Option ℕ := none
  deriving DecidableEq, Repr

structure DiffHunk where
  header : List Char
  lines : List DiffLine
  deriving DecidableEq, Repr

/-- `metaLines` is the field `meta`. -/
structure DiffFile where
  oldPath : List Char
  newPath : List Char
  hunks : List DiffHunk := []
  metaLines : List (List Char) := []
  added : ℕ := 0
  removed : ℕ := 0
  isBinary : Bool := false
  deriving DecidableEq, Repr

/-- The groups of `(.+) b\/(.+)$` on a text without line ends, the first one as long as it can be. -/
def greedyNames : List Char → Option (List Char × List Char)
  | [] => none
  | c :: rest =>
    match greedyNames rest with
    | some (old, new) => some (c :: old, new)
    | none =>
      match StateMachines.behindFront " b/".toList rest with
      | some (d :: new) => some ([c], d :: new)
      | _ => none

/-- `line.match(/^diff --git a\/(.+) b\/(.+)$/)`. -/
def gitNames (line : List Char) : Option (List Char × List Char) :=
  match StateMachines.behindFront "diff --git a/".toList line with
  | none => none
  | some names => if names.any StateMachines.endsLine then none else greedyNames names

/-- `p.replace(/^"|"$/g, "")`. -/
def withoutQuotes (p : List Char) : List Char :=
  let behind := if p.head? = some '"' then p.tail else p
  if behind.getLast? = some '"' then behind.dropLast else behind

/-- `line.slice(4).replace(/^a\//, "").replace(/^"|"$/g, "")`, with `a` or `b`. -/
def headerPath (side : Char) (line : List Char) : List Char :=
  let p := line.drop 4
  withoutQuotes (if [side, '/'].isPrefixOf p then p.drop 2 else p)

/-- The groups of `/^@@ -(\d+)(?:,\d+)? \+(\d+)(?:,\d+)? @@/`, as numbers. -/
def hunkStarts (line : List Char) : Option (ℕ × ℕ) := do
  let old ← StateMachines.behindFront "@@ -".toList line
  let (oldStart, oldLength) ← StateMachines.digits old
  let new ← StateMachines.behindFront " +".toList (StateMachines.skipLength oldLength)
  let (newStart, newLength) ← StateMachines.digits new
  let _ ← StateMachines.behindFront " @@".toList (StateMachines.skipLength newLength)
  return (Nat.ofDigitChars 10 oldStart 0, Nat.ofDigitChars 10 newStart 0)

def DiffFile.pushMeta (f : DiffFile) (line : List Char) : DiffFile :=
  { f with metaLines := f.metaLines ++ [line] }

/-- `currentHunk.lines.push(line)`. -/
def DiffFile.pushLine (f : DiffFile) (line : DiffLine) : DiffFile :=
  { f with hunks := f.hunks.modifyLast fun hunk ↦ { hunk with lines := hunk.lines ++ [line] } }

/-- The variables of the loop. `files` are those in front of the current one, and `currentHunk`
tells whether there is one, which is the last of the current file. -/
structure DiffParser where
  files : List DiffFile := []
  current : Option DiffFile := none
  currentHunk : Bool := false
  oldNo : ℕ := 0
  newNo : ℕ := 0
  deriving DecidableEq, Repr

namespace DiffParser

variable (p : DiffParser)

def startFile (oldPath newPath : List Char) : DiffParser :=
  { p with
    files := p.files ++ p.current.toList
    current := some { oldPath := oldPath, newPath := newPath }
    currentHunk := false }

/-- `current ?? startFile()`. -/
def ensureFile : DiffParser := if p.current.isSome then p else p.startFile [] []

def modifyFile (change : DiffFile → DiffFile) : DiffParser :=
  { p with current := p.current.map change }

/-- The part of the loop for a line in a hunk; `none` for one that is not taken. -/
def readInHunk (line : List Char) : Option DiffParser :=
  match line with
  | '\\' :: _ => some (p.modifyFile (·.pushLine { kind := .noeol, text := line }))
  | '+' :: text =>
    some { p.modifyFile (fun f ↦
        { f.pushLine { kind := .add, text := text, newNo := some p.newNo } with
          added := f.added + 1 }) with
      newNo := p.newNo + 1 }
  | '-' :: text =>
    some { p.modifyFile (fun f ↦
        { f.pushLine { kind := .remove, text := text, oldNo := some p.oldNo } with
          removed := f.removed + 1 }) with
      oldNo := p.oldNo + 1 }
  | ' ' :: text =>
    some { p.modifyFile (·.pushLine
        { kind := .context, text := text, oldNo := some p.oldNo, newNo := some p.newNo }) with
      oldNo := p.oldNo + 1
      newNo := p.newNo + 1 }
  | [] =>
    some { p.modifyFile (·.pushLine
        { kind := .context, text := [], oldNo := some p.oldNo, newNo := some p.newNo }) with
      oldNo := p.oldNo + 1
      newNo := p.newNo + 1 }
  | _ => none

/-- The body of the loop. -/
def read (line : List Char) : DiffParser :=
  if "diff --git ".toList.isPrefixOf line then
    let names := (gitNames line).getD ([], [])
    (p.startFile names.1 names.2).modifyFile (·.pushMeta line)
  else if "--- ".toList.isPrefixOf line then
    p.ensureFile.modifyFile fun f ↦
      { f with oldPath := if f.oldPath = [] then headerPath 'a' line else f.oldPath }.pushMeta line
  else if "+++ ".toList.isPrefixOf line then
    p.ensureFile.modifyFile fun f ↦
      { f with newPath := if f.newPath = [] then headerPath 'b' line else f.newPath }.pushMeta line
  else if "Binary files ".toList.isPrefixOf line then
    p.ensureFile.modifyFile fun f ↦ { f with isBinary := true }.pushMeta line
  else if "@@".toList.isPrefixOf line then
    let starts := (hunkStarts line).getD (0, 0)
    { p.ensureFile.modifyFile (fun f ↦ { f with hunks := f.hunks ++ [⟨line, []⟩] }) with
      currentHunk := true
      oldNo := starts.1
      newNo := starts.2 }
  else
    let inHunk := if p.currentHunk ∧ p.current.isSome then p.readInHunk line else none
    inHunk.getD (p.modifyFile (·.pushMeta line))

/-- `files` at the end of the loop. -/
def allFiles : List DiffFile := p.files ++ p.current.toList

end DiffParser

def parseUnifiedDiff (raw : List Char) : List DiffFile :=
  if raw = [] then [] else ((raw.splitOn '\n').foldl DiffParser.read {}).allFiles

structure DiffFilePair where
  path : List Char
  oldPath : List Char
  newPath : List Char
  originalContent : List Char
  modifiedContent : List Char
  isBinary : Bool
  added : ℕ
  removed : ℕ
  deriving DecidableEq, Repr

def DiffLine.onOriginal (line : DiffLine) : Bool := line.kind == .context || line.kind == .remove

def DiffLine.onModified (line : DiffLine) : Bool := line.kind == .context || line.kind == .add

/-- The lines of a side of a file: for each hunk its header, with an empty line in front when
something stands there, and the lines that are on the side. -/
def sideLines (onSide : DiffLine → Bool) (hunks : List DiffHunk) : List (List Char) :=
  hunks.foldl
    (fun side hunk ↦ (if side.length > 0 then side ++ [[]] else side) ++ hunk.header ::
      (hunk.lines.filter onSide).map (·.text)) []

def toFilePair (f : DiffFile) : DiffFilePair where
  path := if f.newPath ≠ [] then f.newPath else f.oldPath
  oldPath := f.oldPath
  newPath := f.newPath
  originalContent :=
    if f.isBinary then [] else joinLines (sideLines DiffLine.onOriginal f.hunks)
  modifiedContent :=
    if f.isBinary then [] else joinLines (sideLines DiffLine.onModified f.hunks)
  isBinary := f.isBinary
  added := f.added
  removed := f.removed

def unifiedDiffToFilePairs (raw : List Char) : List DiffFilePair :=
  (parseUnifiedDiff raw).map toFilePair

end Flockctl.FileEdits
