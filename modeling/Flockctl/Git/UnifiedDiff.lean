import Flockctl.Git.QuotedPaths

/-!
# Git's unified diff format

A diff goes through the files that differ. A file is announced by its two names and by extended
headers; where lines of it differ, the two names follow once more, and then hunks: each shows some
lines that are kept, removed or added, behind a header with the position and length of the hunk on
both sides. The lines between the hunks are the same in both files and are not shown.
-/

namespace Flockctl.Git

/-- A line, without the line feed that ends it. -/
structure Line where
  text : List Char
  single : '\n' ∉ text
  deriving DecidableEq

/-- The path of a file in a tree. -/
structure TreePath where
  text : List Char
  nonempty : text ≠ []
  relative : text.head? ≠ some '/'
  deriving DecidableEq

/-- The names of a file before and after. -/
inductive FileNames where
  | created (path : TreePath)
  | deleted (path : TreePath)
  | changed (old new : TreePath)

/-- What becomes of a shown line. -/
inductive Change where
  | keep
  | remove
  | add
  deriving DecidableEq

/-- A shown line. The last line of a file may have no line feed. -/
structure Edit where
  change : Change
  line : Line
  unterminated : Bool

/-- A hunk, with the lines in front of it that are not shown. -/
structure Hunk where
  skipped : List Line
  heading : Option Line
  edits : List Edit

def Edit.oldLine (edit : Edit) : Option Line :=
  if edit.change = .add then none else some edit.line

/-- The line in the new file, and whether the diff adds it. -/
def Edit.newLine (edit : Edit) : Option (Line × Bool) :=
  match edit.change with
  | .keep => some (edit.line, false)
  | .remove => none
  | .add => some (edit.line, true)

def Hunk.oldLines (hunk : Hunk) : List Line := hunk.skipped ++ hunk.edits.filterMap Edit.oldLine

def Hunk.newLines (hunk : Hunk) : List (Line × Bool) :=
  hunk.skipped.map (·, false) ++ hunk.edits.filterMap Edit.newLine

/-- An extended header (`index …`, `new file mode …`, `rename from …`, `Binary files … differ`)
starts with a letter. -/
structure ExtendedHeader extends Line where
  letter : ∃ c ∈ text.head?, c.isAlpha = true

/-- What a diff says of one file. `rest` are the lines behind the last hunk. -/
structure FileDiff where
  names : FileNames
  extended : List ExtendedHeader
  hunks : List Hunk
  rest : List Line
  created : ∀ path, names = .created path → hunks.flatMap Hunk.oldLines ++ rest = []
  deleted : ∀ path, names = .deleted path → hunks.flatMap Hunk.newLines = [] ∧ rest = []

/-- The lines of the new file, and which of them the diff adds. -/
def FileDiff.newFile (file : FileDiff) : List (Line × Bool) :=
  file.hunks.flatMap Hunk.newLines ++ file.rest.map (·, false)

def FileNames.newPath : FileNames → Option TreePath
  | .created path => some path
  | .deleted _ => none
  | .changed _ new => some new

/-- The added ones of some lines of which the first has this number, with their numbers. -/
def addedFrom (number : ℕ) (lines : List (Line × Bool)) : List (ℕ × Line) :=
  (lines.zipIdx number).filterMap fun ((line, isAdded), n) ↦ if isAdded then some (n, line) else none

/-- The added lines of a file with their line numbers in the new file. -/
def FileDiff.added (file : FileDiff) : List (ℕ × Line) := addedFrom 1 file.newFile

def decimal (n : ℕ) : List Char := Nat.toDigits 10 n

def diskNull : List Char := "/dev/null".toList

/-- The range of a hunk on one side, behind so many lines. The length of a single line is left out,
and an empty range stands behind the line in front of it. -/
def rangeText (before count : ℕ) : List Char :=
  decimal (if count = 0 then before else before + 1) ++
    if count = 1 then [] else ',' :: decimal count

/-- The name of a file in a header, with a tab behind a name with a blank. -/
def nameText (name : List Char) : List Char :=
  quotePath name ++ if ' ' ∈ quotePath name then ['\t'] else []

def Change.sign : Change → Char
  | .keep => ' '
  | .remove => '-'
  | .add => '+'

def noNewline : List Char := "\\ No newline at end of file".toList

def Edit.lines (edit : Edit) : List (List Char) :=
  (edit.change.sign :: edit.line.text) :: if edit.unterminated then [noNewline] else []

def Hunk.header (hunk : Hunk) (oldBefore newBefore : ℕ) : List Char :=
  "@@ -".toList ++
    rangeText (oldBefore + hunk.skipped.length) (hunk.edits.filterMap Edit.oldLine).length ++
    " +".toList ++
    rangeText (newBefore + hunk.skipped.length) (hunk.edits.filterMap Edit.newLine).length ++
    " @@".toList ++
    match hunk.heading with
    | none => []
    | some heading => ' ' :: heading.text

/-- The hunks behind so many lines of both files. -/
def hunkLines (oldBefore newBefore : ℕ) : List Hunk → List (List Char)
  | [] => []
  | hunk :: rest =>
    hunk.header oldBefore newBefore :: (hunk.edits.flatMap Edit.lines ++
      hunkLines (oldBefore + hunk.oldLines.length) (newBefore + hunk.newLines.length) rest)

def FileNames.announced : FileNames → List Char
  | .created path | .deleted path =>
    quotePath ('a' :: '/' :: path.text) ++ ' ' :: quotePath ('b' :: '/' :: path.text)
  | .changed old new =>
    quotePath ('a' :: '/' :: old.text) ++ ' ' :: quotePath ('b' :: '/' :: new.text)

def FileNames.oldHeader : FileNames → List Char
  | .created _ => "--- ".toList ++ diskNull
  | .deleted path => "--- ".toList ++ nameText ('a' :: '/' :: path.text)
  | .changed old _ => "--- ".toList ++ nameText ('a' :: '/' :: old.text)

def FileNames.newHeader : FileNames → List Char
  | .created path => "+++ ".toList ++ nameText ('b' :: '/' :: path.text)
  | .deleted _ => "+++ ".toList ++ diskNull
  | .changed _ new => "+++ ".toList ++ nameText ('b' :: '/' :: new.text)

def FileDiff.lines (file : FileDiff) : List (List Char) :=
  ("diff --git ".toList ++ file.names.announced) :: (file.extended.map (·.text) ++
    if file.hunks.isEmpty then []
    else file.names.oldHeader :: file.names.newHeader :: hunkLines 0 0 file.hunks)

/-- The text of a diff: every line ends with a line feed. -/
def diffText (files : List FileDiff) : List Char :=
  (files.flatMap FileDiff.lines).flatMap (· ++ ['\n'])

end Flockctl.Git
