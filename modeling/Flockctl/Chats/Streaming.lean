import Flockctl.Transition.Run

/-!
# A streamed turn

The session of a streamed turn emits events, and each is handled at once by its listeners: text and
thinking are accumulated, a tool call or the end of an assistant message flushes what was
accumulated into rows, and every event but the last kind is queued for the client. A loop drains the
queue; it awaits each write, and when the queue is empty it awaits a waker, which the next event or
the end of the run resolves. After the run what is left is flushed.

Listeners run in the order in which they were registered: the flush of a tool call comes before the
row that the executor of chats inserts for it.
-/

namespace Flockctl.Chats.Streaming

/-- A text by its UTF-16 code units. -/
abbrev Text := List UInt16

def MAX_CHAT_STREAM_BYTES : ℕ := 8 * 1024 * 1024

structure BoundedStringAccumulator where
  chunks : List Text := []
  totalLen : ℕ := 0
  wasTruncated : Bool := false

namespace BoundedStringAccumulator

/-- What is longer than the bound is cut to its tail. -/
def append (acc : BoundedStringAccumulator) (chunk : Text) : BoundedStringAccumulator :=
  if chunk.length = 0 then acc
  else
    let chunks := acc.chunks ++ [chunk]
    let totalLen := acc.totalLen + chunk.length
    if MAX_CHAT_STREAM_BYTES < totalLen then
      let joined := chunks.flatten
      let trimmed := joined.drop (joined.length - MAX_CHAT_STREAM_BYTES)
      { chunks := [trimmed], totalLen := trimmed.length, wasTruncated := true }
    else { acc with chunks := chunks, totalLen := totalLen }

/-- `toString()`. -/
def text (acc : BoundedStringAccumulator) : Text := acc.chunks.flatten

end BoundedStringAccumulator

variable {Call Result : Type}

/-- An event of the session; `Call` and `Result` are what tool events carry. -/
inductive SessionEvent (Call Result : Type)
  | text (chunk : Text)
  | thinking (chunk : Text)
  | tool_call (call : Call)
  | tool_result (result : Result)
  | turn_end

/-- An event on the wire. -/
inductive SseEvent (Call Result : Type)
  | content (chunk : Text)
  | thinking (chunk : Text)
  | tool_call (call : Call)
  | tool_result (result : Result)

/-- A row of `chat_messages` that the turn adds; both kinds of tool rows have the role of tools. -/
inductive TurnRow (Call Result : Type)
  | assistant (content : Text)
  | thinking (content : Text)
  | call (call : Call)
  | result (result : Result)

/-- Where the loop that drains the queue is: it awaits a write, the waker, or the run; or it is
about to go on. -/
inductive LoopPoint (Call Result : Type)
  | writing (event : SseEvent Call Result)
  | waiting
  | woken
  | awaitingRun
  | lastWriting (event : SseEvent Call Result)
  | finishing
  | ended

/-- `resolveWait` tells whether the waker is set. The rows are in the order of their ids, and the id
of the last assistant row is its place among them. -/
structure Turn (Call Result : Type) where
  pendingTextAcc : BoundedStringAccumulator := {}
  pendingThinkingAcc : BoundedStringAccumulator := {}
  rows : List (TurnRow Call Result) := []
  lastAssistantRowId : Option ℕ := none
  eventQueue : List (SseEvent Call Result) := []
  head : ℕ := 0
  resolveWait : Bool := false
  runFinished : Bool := false
  clientDisconnected : Bool := false
  point : LoopPoint Call Result := .woken
  written : List (SseEvent Call Result) := []

namespace Turn

variable (s : Turn Call Result)

/-- A loop that awaits the waker is about to go on. -/
def wakeWaiter : Turn Call Result :=
  if s.resolveWait then { s with resolveWait := false, point := .woken } else s

def push (event : SseEvent Call Result) : Turn Call Result :=
  wakeWaiter { s with eventQueue := s.eventQueue ++ [event] }

def insertRow (row : TurnRow Call Result) : Turn Call Result := { s with rows := s.rows ++ [row] }

def flushThinking : Turn Call Result :=
  if 0 < s.pendingThinkingAcc.totalLen then
    { s.insertRow (.thinking s.pendingThinkingAcc.text) with pendingThinkingAcc := {} }
  else s

def flushText : Turn Call Result :=
  if 0 < s.pendingTextAcc.totalLen then
    { s.insertRow (.assistant s.pendingTextAcc.text) with
      lastAssistantRowId := some s.rows.length
      pendingTextAcc := {} }
  else s

/-- What has been accumulated becomes rows. -/
def flushPending : Turn Call Result := s.flushThinking.flushText

/-- The listeners of an event, in the order of their registration. -/
def emit : SessionEvent Call Result → Turn Call Result
  | .text chunk =>
    push { s with pendingTextAcc := s.pendingTextAcc.append chunk } (.content chunk)
  | .thinking chunk =>
    push { s with pendingThinkingAcc := s.pendingThinkingAcc.append chunk } (.thinking chunk)
  | .tool_call call => (s.flushPending.push (.tool_call call)).insertRow (.call call)
  | .tool_result result => (s.push (.tool_result result)).insertRow (.result result)
  | .turn_end => s.flushPending

/-- The run has settled. -/
def settle : Turn Call Result := wakeWaiter { s with runFinished := true }

/-- A queue that has been drained is emptied. -/
def resetQueue : Turn Call Result :=
  if 0 < s.head ∧ s.head = s.eventQueue.length then { s with eventQueue := [], head := 0 } else s

/-- What the loop does once it writes no more: it ends, or it awaits the waker. -/
def afterDrain : Turn Call Result :=
  let s := s.resetQueue
  if s.clientDisconnected then { s with point := .awaitingRun }
  else if s.runFinished ∧ s.head = s.eventQueue.length then { s with point := .awaitingRun }
  else { s with resolveWait := true, point := .waiting }

/-- The loop goes on to its next await. -/
def drain : Turn Call Result :=
  match s.eventQueue[s.head]? with
  | some event => { s with head := s.head + 1, point := .writing event }
  | none => s.afterDrain

/-- The events that are left once the run has settled. -/
def drainRest : Turn Call Result :=
  if s.clientDisconnected then { s with point := .finishing }
  else
    match s.eventQueue[s.head]? with
    | some event => { s with head := s.head + 1, point := .lastWriting event }
    | none => { s with point := .finishing }

/-- A row for the usage records where there is no assistant row. -/
def insertPlaceholder : Turn Call Result :=
  match s.lastAssistantRowId with
  | some _ => s
  | none => { s.insertRow (.assistant []) with lastAssistantRowId := some s.rows.length }

/-- The end of the stream; a turn that has met a rate limit has been flushed before. -/
def finish (rateLimited : Bool) : Turn Call Result :=
  let flushed := if rateLimited then s.flushPending else s
  { flushed.flushPending.insertPlaceholder with point := .ended }

end Turn

/-- What happens next: an event of the session, the end of the run, the end of a write, or the loop
that goes on. -/
inductive StreamStep (Call Result : Type)
  | emit (event : SessionEvent Call Result)
  | settle
  | write (ok : Bool)
  | resume
  | proceed
  | finish (rateLimited : Bool)

namespace Turn

/-- A step that cannot happen changes nothing. -/
def step (s : Turn Call Result) : StreamStep Call Result → Turn Call Result
  | .emit event => if s.runFinished then s else s.emit event
  | .settle => if s.runFinished then s else s.settle
  | .write ok =>
    match s.point with
    | .writing event =>
      if ok then drain { s with written := s.written ++ [event] }
      else afterDrain { s with clientDisconnected := true }
    | .lastWriting event =>
      if ok then drainRest { s with written := s.written ++ [event] }
      else drainRest { s with clientDisconnected := true }
    | _ => s
  | .resume =>
    match s.point with
    | .woken => s.drain
    | _ => s
  | .proceed =>
    match s.point with
    | .awaitingRun => if s.runFinished then s.drainRest else s
    | _ => s
  | .finish rateLimited =>
    match s.point with
    | .finishing => s.finish rateLimited
    | _ => s

/-- The step can happen. -/
def Enabled (s : Turn Call Result) : StreamStep Call Result → Prop
  | .emit _ => s.runFinished = false
  | .settle => s.runFinished = false
  | .write _ => (∃ event, s.point = .writing event) ∨ ∃ event, s.point = .lastWriting event
  | .resume => s.point = .woken
  | .proceed => s.point = .awaitingRun ∧ s.runFinished = true
  | .finish _ => s.point = .finishing

/-- What the session emits in a step; it emits nothing once its run has settled. -/
def emits (s : Turn Call Result) : StreamStep Call Result → List (SessionEvent Call Result)
  | .emit event => if s.runFinished then [] else [event]
  | _ => []

/-- The events of a run of steps. -/
def emitted (s : Turn Call Result) : List (StreamStep Call Result) → List (SessionEvent Call Result)
  | [] => []
  | step :: rest => s.emits step ++ emitted (s.step step) rest

end Turn

end Flockctl.Chats.Streaming
