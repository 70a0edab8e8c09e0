import Flockctl.Collections.Concatenation
import Flockctl.StateMachines.DiffReader

/-!
# The file filter of the diff analyzer

A glob is turned into a regular expression piece by piece, and a line is analysed if the expression
matches the whole name of its file. Texts are sequences of UTF-16 units here, as the expressions
match them.
-/

namespace Flockctl.StateMachines

open Collections

abbrev Units := List UInt16

/-- The UTF-16 units of a character. -/
def unitsOf (c : Char) : Units :=
  if c.toNat < 0x10000 then [UInt16.ofNat c.toNat]
  else
    let offset := c.toNat - 0x10000
    [UInt16.ofNat (0xd800 + offset / 0x400), UInt16.ofNat (0xdc00 + offset % 0x400)]

def slash : UInt16 := 0x2f

def starUnit : UInt16 := 0x2a

def questionUnit : UInt16 := 0x3f

/-- What `.` does not match. -/
def isTerminator (unit : UInt16) : Bool :=
  unit == 0x0a || unit == 0x0d || unit == 0x2028 || unit == 0x2029

/-- A piece of the expression: `.*`, `[^/]*`, `[^/]`, or a unit, behind a backslash where it would
mean something else. -/
inductive Piece where
  | dots
  | segmentRest
  | segmentUnit
  | unit (unit : UInt16)
  deriving DecidableEq, Repr

/-- `globToRegExp`, without the anchors at both ends. -/
def globToRegExp : Units → List Piece
  | [] => []
  | c :: rest =>
    if c = starUnit then
      match rest with
      | next :: behind =>
        if next = starUnit then
          match behind with
          | third :: others =>
            if third = slash then .dots :: globToRegExp others
            else .dots :: globToRegExp (third :: others)
          | [] => [.dots]
        else .segmentRest :: globToRegExp (next :: behind)
      | [] => [.segmentRest]
    else if c = questionUnit then .segmentUnit :: globToRegExp rest
    else .unit c :: globToRegExp rest

/-- Some units that pass a check and then a text that is accepted. -/
def many (check : UInt16 → Bool) (accept : Units → Bool) : Units → Bool
  | [] => accept []
  | unit :: rest => accept (unit :: rest) || check unit && many check accept rest

/-- One unit that passes a check and then a text that is accepted. -/
def one (check : UInt16 → Bool) (accept : Units → Bool) : Units → Bool
  | [] => false
  | unit :: rest => check unit && accept rest

/-- `re.test(text)`, with the anchors at both ends. -/
def test : List Piece → Units → Bool
  | [] => List.isEmpty
  | .dots :: rest => many (fun unit ↦ !isTerminator unit) (test rest)
  | .segmentRest :: rest => many (fun unit ↦ unit != slash) (test rest)
  | .segmentUnit :: rest => one (fun unit ↦ unit != slash) (test rest)
  | .unit unit :: rest => one (fun other ↦ other == unit) (test rest)

/-- `filterLinesByGlob`; an empty glob counts as none. -/
def filterLinesByGlob (lines : List DiffLine) (glob : Option Units) : List DiffLine :=
  match glob with
  | none | some [] => lines
  | some glob => lines.filter fun line ↦ test (globToRegExp glob) (line.file.flatMap unitsOf)

end Flockctl.StateMachines
