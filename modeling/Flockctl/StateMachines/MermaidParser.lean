import Flockctl.Collections.JsText
import Flockctl.Collections.Occurrences

/-!
# The strict parser of state diagrams

A state machine is written as a small part of Mermaid's `stateDiagram-v2`: one arrow a line, from
`[*]` to the initial state, from a state to `[*]`, or between two states with an event label behind
a colon. The parser goes through the lines once and collects states, transitions and errors.
-/

namespace Flockctl.StateMachines

open Collections

abbrev Text := List Char

/-- `from` and `to` of the source are `source` and `target`. -/
structure Transition where
  source : Text
  target : Text
  event : Text
  deriving DecidableEq, Repr

structure StateMachine where
  states : List Text
  initial : Text
  transitions : List Transition
  final : Option (List Text)
  deriving DecidableEq, Repr

structure ParseError where
  message : String
  line : Option ℕ
  deriving DecidableEq, Repr

def ARROW : Text := ['-', '-', '>']

def TERMINAL_MARK : Text := ['[', '*', ']']

/-- `HEADER_RE.test(line)`. -/
def isHeader (line : Text) : Bool :=
  line == "stateDiagram".toList || line == "stateDiagram-v2".toList

def isNameStart (c : Char) : Bool := c.isAlpha || c == '_'

def isNameChar (c : Char) : Bool := c.isAlphanum || c == '_'

/-- `STATE_NAME_RE.test(name)`. -/
def isStateName : Text → Bool
  | [] => false
  | c :: rest => isNameStart c && rest.all isNameChar

def stripComment (line : Text) : Text :=
  match cutAt line ['%', '%'] with
  | none => line
  | some (before, _) => before

/-- The carriage return in front of a line feed belongs to the line break. -/
def dropCarriageReturn (line : Text) : Text :=
  if line.getLast? = some '\r' then line.dropLast else line

/-- `text.split(/\r?\n/)`. -/
def splitLines (text : Text) : List Text :=
  let pieces := text.splitOn '\n'
  pieces.dropLast.map dropCarriageReturn ++ pieces.getLast?.toList

/-- The lines with their numbers, without their comments and the white space around them. -/
def numberedLines (text : Text) : List (ℕ × Text) :=
  ((splitLines text).zipIdx 1).map fun (line, number) ↦ (number, trim (stripComment line))

/-- What a line of the accepted forms says. -/
inductive Statement where
  | initial (target : Text)
  | final (source : Text)
  | transition (transition : Transition)
  deriving DecidableEq, Repr

/-- The right-hand side of an arrow: the target and the event label behind the first colon. -/
def splitEvent (rest : Text) : Except String (Text × Option Text) :=
  match cutAt rest [':'] with
  | none => .ok (rest, none)
  | some (before, after) =>
    if trim after = [] then .error "transition event label after ':' is empty"
    else .ok (trim before, some (trim after))

/-- The message about a name that is none. -/
def invalidStateName (name : Text) : String :=
  "invalid state name `" ++ String.ofList name ++ "`"

/-- The checks on the two ends of an arrow and its label. -/
def connect (left right : Text) (event : Option Text) : Except String Statement :=
  if right = [] then .error "transition target is empty"
  else if left = TERMINAL_MARK ∧ right = TERMINAL_MARK then
    .error "transition '[*] --> [*]' is not allowed"
  else if left = TERMINAL_MARK then
    if isStateName right = false then .error (invalidStateName right)
    else if event ≠ none then
      .error ("initial transition '[*] --> " ++ String.ofList right ++
        "' must not have an event label")
    else .ok (.initial right)
  else if right = TERMINAL_MARK then
    if isStateName left = false then .error (invalidStateName left)
    else if event ≠ none then
      .error ("final transition '" ++ String.ofList left ++
        " --> [*]' must not have an event label")
    else .ok (.final left)
  else if isStateName left = false then .error (invalidStateName left)
  else if isStateName right = false then .error (invalidStateName right)
  else match event with
    | none =>
      .error ("transition '" ++ String.ofList left ++ " --> " ++ String.ofList right ++
        "' is missing an event label (use ': eventName')")
    | some event => .ok (.transition { source := left, target := right, event })

/-- What the body of the loop makes of a line that is no header, up to the check against the
initial state of an earlier line. -/
def readStatement (stripped : Text) : Except String Statement :=
  match cutAt stripped ARROW with
  | none =>
    .error ("expected transition containing '-->': `" ++ String.ofList stripped ++ "`")
  | some (before, after) =>
    if trim before = [] then .error "transition source is empty"
    else if trim after = [] then .error "transition target is empty"
    else match splitEvent (trim after) with
      | .error message => .error message
      | .ok (right, event) => connect (trim before) right event

/-- The variables of the loop. `statesOrder` and `finalOrder` have the elements of `seenStates` and
`finalSet`. -/
structure Progress where
  errors : List ParseError
  initial : Option Text
  finalOrder : List Text
  transitions : List Transition
  statesOrder : List Text
  headerConsumed : Bool

def Progress.start : Progress where
  errors := []
  initial := none
  finalOrder := []
  transitions := []
  statesOrder := []
  headerConsumed := false

/-- `recordState`, and the same for final states. -/
def recordState (states : List Text) (state : Text) : List Text :=
  if state ∈ states then states else states ++ [state]

def Progress.fail (progress : Progress) (number : ℕ) (message : String) : Progress :=
  { progress with errors := progress.errors ++ [{ message, line := some number }] }

def Progress.accept (progress : Progress) (number : ℕ) : Statement → Progress
  | .initial right =>
    match progress.initial with
    | some initial =>
      if initial = right then
        { progress with statesOrder := recordState progress.statesOrder right }
      else
        progress.fail number ("multiple initial states declared: `" ++ String.ofList initial ++
          "` and `" ++ String.ofList right ++ "`")
    | none =>
      { progress with
        initial := some right
        statesOrder := recordState progress.statesOrder right }
  | .final left =>
    { progress with
      statesOrder := recordState progress.statesOrder left
      finalOrder := recordState progress.finalOrder left }
  | .transition transition =>
    { progress with
      statesOrder :=
        recordState (recordState progress.statesOrder transition.source) transition.target
      transitions := progress.transitions ++ [transition] }

/-- A line that is no header. -/
def Progress.read (progress : Progress) (line : ℕ × Text) : Progress :=
  match readStatement line.2 with
  | .error message => progress.fail line.1 message
  | .ok statement => progress.accept line.1 statement

/-- The body of the loop. -/
def Progress.step (progress : Progress) (line : ℕ × Text) : Progress :=
  if line.2 = [] then progress
  else if progress.headerConsumed = false ∧ isHeader line.2 = true then
    { progress with headerConsumed := true }
  else { progress with headerConsumed := true }.read line

/-- What follows the loop. -/
def Progress.finish (progress : Progress) : Except (List ParseError) StateMachine :=
  let errors := progress.errors ++
    (if progress.initial = none then
      [{ message := "missing initial state declaration: '[*] --> <state>'", line := none }]
    else []) ++
    (if progress.statesOrder = [] then [{ message := "no states declared", line := none }]
    else [])
  match errors, progress.initial with
  | [], some initial =>
    .ok {
      states := progress.statesOrder
      initial
      transitions := progress.transitions
      final := if progress.finalOrder = [] then none else some progress.finalOrder }
  | errors, _ => .error errors

def parseMermaidStateDiagram (text : Text) : Except (List ParseError) StateMachine :=
  ((numberedLines text).foldl Progress.step .start).finish

end Flockctl.StateMachines
