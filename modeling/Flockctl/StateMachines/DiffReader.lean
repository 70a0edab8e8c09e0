import Flockctl.Collections.JsText

/-!
# The reader of a diff

The diff analyzer takes the added lines out of the text of a diff. It goes through the lines of the
text and tells them apart by how they begin: a line with three pluses and a blank names the file
that the following lines belong to, a hunk header sets the line number, and a line with a plus in
front is an added one. The lengths of the hunks are not read.
-/

namespace Flockctl.StateMachines

open Collections

/-- An added line with the file it is in and its number there. -/
structure DiffLine where
  file : List Char
  line : ℕ
  content : List Char
  deriving DecidableEq, Repr

/-- What `.` does not match. -/
def endsLine (c : Char) : Bool :=
  c == '\n' || c == '\r' || c == '\u2028' || c == '\u2029'

/-- The group of `(.+?)(?:\t.*)?$`. -/
def nameBeforeTab : List Char → Option (List Char)
  | [] => none
  | c :: rest =>
    if (c :: rest).any endsLine then none else some (c :: rest.takeWhile fun c ↦ c != '\t')

/-- `(?:[ab]\/)?(.+?)(?:\t.*)?$`, the optional group first taken and then left out. -/
def nameBehindSide (text : List Char) : Option (List Char) :=
  match text with
  | 'a' :: '/' :: rest => (nameBeforeTab rest).orElse fun _ ↦ nameBeforeTab text
  | 'b' :: '/' :: rest => (nameBeforeTab rest).orElse fun _ ↦ nameBeforeTab text
  | _ => nameBeforeTab text

/-- The group of `/^\+\+\+\s+(?:[ab]\/)?(.+?)(?:\t.*)?$/` on a line that starts with three pluses
and white space; `\s+` takes as much as it can. -/
def headerName (line : List Char) : Option (List Char) :=
  let behind := line.drop 3
  let blanks := (behind.takeWhile isWhitespace).length
  (List.range' 1 blanks).reverse.findSome? fun taken ↦ nameBehindSide (behind.drop taken)

/-- `\d+`, with what follows. -/
def digits (text : List Char) : Option (List Char × List Char) :=
  let taken := text.takeWhile Char.isDigit
  if taken = [] then none else some (taken, text.drop taken.length)

/-- `(?:,\d+)?`, with what follows. -/
def skipLength (text : List Char) : List Char :=
  match text with
  | ',' :: rest =>
    match digits rest with
    | some (_, behind) => behind
    | none => text
  | _ => text

/-- What follows a text that has this in front. -/
def behindFront (front text : List Char) : Option (List Char) :=
  if front.isPrefixOf text then some (text.drop front.length) else none

/-- The group of `/^@@ -\d+(?:,\d+)? \+(\d+)(?:,\d+)? @@/`, as `parseInt` reads it. -/
def hunkStart (line : List Char) : Option ℕ := do
  let old ← behindFront "@@ -".toList line
  let (_, oldLength) ← digits old
  let new ← behindFront " +".toList (skipLength oldLength)
  let (start, newLength) ← digits new
  let _ ← behindFront " @@".toList (skipLength newLength)
  return Nat.ofDigitChars 10 start 0

/-- The lines that are passed over whatever they hold. -/
def passedOver : List (List Char) :=
  ["--- ".toList, "diff --git".toList, "index ".toList, "new file mode".toList,
    "deleted file mode".toList, "rename ".toList, "similarity ".toList]

/-- The variables of the loop. -/
structure Reader where
  added : List DiffLine
  currentFile : Option (List Char)
  newLineNo : ℕ

/-- The body of the loop. -/
def Reader.read (reader : Reader) (line : List Char) : Reader :=
  if "+++ ".toList.isPrefixOf line then
    { reader with
      currentFile :=
        if headerName line = some "/dev/null".toList then none else headerName line }
  else if passedOver.any (·.isPrefixOf line) then reader
  else match hunkStart line with
    | some start => { reader with newLineNo := start }
    | none =>
      match reader.currentFile with
      | none => reader
      | some file =>
        match line with
        | '+' :: content =>
          { reader with
            added := reader.added ++ [{ file, line := reader.newLineNo, content }]
            newLineNo := reader.newLineNo + 1 }
        | ' ' :: _ => { reader with newLineNo := reader.newLineNo + 1 }
        | _ => reader

def Reader.start : Reader where
  added := []
  currentFile := none
  newLineNo := 0

def parseDiffAddedLines (diff : List Char) : List DiffLine :=
  ((diff.splitOn '\n').foldl Reader.read .start).added

end Flockctl.StateMachines
