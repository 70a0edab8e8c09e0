import Flockctl.Chats.Streaming

/-!
# One turn of a Copilot session

The listeners of the session and the call that runs the turn push events into a queue, and a
generator hands them to its caller one by one. It ends after the first event that tells how the turn
went, but not before the call has settled.
-/

namespace Flockctl.Copilot

open Chats.Streaming

structure AgentUsage where
  inputTokens : ℕ := 0
  outputTokens : ℕ := 0
  cacheCreationInputTokens : ℕ := 0
  cacheReadInputTokens : ℕ := 0
  deriving DecidableEq, Repr

structure AssistantUsageEventData where
  inputTokens : Option ℕ := none
  outputTokens : Option ℕ := none
  cacheReadTokens : Option ℕ := none
  cacheWriteTokens : Option ℕ := none
  deriving DecidableEq, Repr

/-- The listener of `assistant.usage`. -/
def AgentUsage.add (usage : AgentUsage) (d : AssistantUsageEventData) : AgentUsage where
  inputTokens := usage.inputTokens + d.inputTokens.getD 0
  outputTokens := usage.outputTokens + d.outputTokens.getD 0
  cacheReadInputTokens := usage.cacheReadInputTokens + d.cacheReadTokens.getD 0
  cacheCreationInputTokens := usage.cacheCreationInputTokens + d.cacheWriteTokens.getD 0

/-- A part of a message: a text, or a value that may have a property `text` with a text. -/
inductive MessagePart
  | text (text : Text)
  | value (text : Option Text)
  deriving DecidableEq, Repr

inductive MessageContent
  | text (text : Text)
  | parts (parts : List MessagePart)
  | other
  deriving DecidableEq, Repr

def extractMessageText : MessageContent → Text
  | .text text => text
  | .parts parts => parts.flatMap fun
    | .text text => text
    | .value text => text.getD []
  | .other => []

/-- The usage of a `done` event. -/
structure DoneUsage where
  inputTokens : ℕ
  outputTokens : ℕ
  totalCostUsd : ℕ
  deriving DecidableEq, Repr

/-- The counters that a reader of the usage finds, where one that is absent counts as 0. -/
def DoneUsage.counters (usage : DoneUsage) : AgentUsage where
  inputTokens := usage.inputTokens
  outputTokens := usage.outputTokens

inductive StreamChatEvent
  | text (text : Text)
  | done (usage : DoneUsage)
  | error (error : Text)
  deriving DecidableEq, Repr

/-- `ev.type === "done" || ev.type === "error"`. -/
def StreamChatEvent.isTerminal : StreamChatEvent → Bool
  | .text _ => false
  | .done _ => true
  | .error _ => true

/-- The last event of `run`. -/
def runOutcome (usage : AgentUsage) : Option Text → StreamChatEvent
  | none => .done ⟨usage.inputTokens, usage.outputTokens, 0⟩
  | some error => .error error

def abortedByCaller : StreamChatEvent :=
  .error ("Aborted by caller".toList.map (·.toNat.toUInt16))

/-- Where the generator stands. At most one waiter is in the list of waiters, that of the loop. -/
inductive LoopPoint
  | unstarted
  /-- At `await next()`, with a waiter. -/
  | waiting
  /-- At `await next()`, which has got a value. -/
  | handed (event : Option StreamChatEvent)
  /-- At `yield ev`. -/
  | suspended (event : StreamChatEvent)
  /-- In the `finally` block, at `await run`. -/
  | ending
  | finished
  deriving DecidableEq, Repr

structure CopilotStream where
  queue : List StreamChatEvent := []
  done : Bool := false
  usage : AgentUsage := {}
  sawDelta : Bool := false
  point : LoopPoint := .unstarted
  /-- What the caller has been given. -/
  yielded : List StreamChatEvent := []
  /-- `sendAndWait` has settled. -/
  settled : Bool := false
  /-- The signal has been aborted. -/
  aborted : Bool := false
  deriving DecidableEq, Repr

inductive StreamStep
  /-- The listeners are set, and `sendAndWait` is called. -/
  | start
  | delta (deltaContent : Text)
  | message (content : MessageContent)
  | usage (data : AssistantUsageEventData)
  | tool
  /-- `sendAndWait` returns, or throws an error with a message. -/
  | settle (error : Option Text)
  | abort
  /-- The caller asks for the next event. -/
  | pull
  /-- The loop goes on with what it was handed. -/
  | resume
  /-- The generator returns. -/
  | finish
  deriving DecidableEq, Repr

namespace CopilotStream

variable (s : CopilotStream)

def push (e : StreamChatEvent) : CopilotStream :=
  if s.point = .waiting then { s with point := .handed (some e) }
  else { s with queue := s.queue ++ [e] }

def close : CopilotStream :=
  { s with
    done := true
    point := if s.point = .waiting then .handed none else s.point }

def next : CopilotStream :=
  match s.queue with
  | e :: queue => { s with queue := queue, point := .handed (some e) }
  | [] => { s with point := if s.done then .handed none else .waiting }

/-- The listener of `assistant.message_delta`. -/
def onDelta (chunk : Text) : CopilotStream :=
  if chunk = [] then s else { s with sawDelta := true }.push (.text chunk)

/-- The listener of `assistant.message`. -/
def onMessage (content : MessageContent) : CopilotStream :=
  if s.sawDelta then s
  else
    let text := extractMessageText content
    if text = [] then s else s.push (.text text)

/-- The rest of `run`, when `sendAndWait` has settled. -/
def onSettled (error : Option Text) : CopilotStream :=
  { (s.push (runOutcome s.usage error)).close with settled := true }

/-- The listener of the signal. -/
def onAbort : CopilotStream :=
  { (s.push abortedByCaller).close with aborted := true }

def step (s : CopilotStream) : StreamStep → CopilotStream
  | .start => if s.point = .unstarted then s.next else s
  | .delta chunk => if s.point = .unstarted then s else s.onDelta chunk
  | .message content => if s.point = .unstarted then s else s.onMessage content
  | .usage data => if s.point = .unstarted then s else { s with usage := s.usage.add data }
  | .tool => s
  | .settle error => if s.point = .unstarted ∨ s.settled then s else s.onSettled error
  -- A signal that is aborted before it has the listener never calls it.
  | .abort =>
    if s.aborted then s
    else if s.point = .unstarted then { s with aborted := true } else s.onAbort
  | .pull =>
    match s.point with
    | .suspended event => if event.isTerminal then { s with point := .ending } else s.next
    | _ => s
  | .resume =>
    match s.point with
    | .handed none => { s with point := .ending }
    | .handed (some event) =>
      { s with yielded := s.yielded ++ [event], point := .suspended event }
    | _ => s
  | .finish => if s.point = .ending ∧ s.settled then { s with point := .finished } else s

end CopilotStream

structure ChatResult where
  textAcc : BoundedStringAccumulator := {}
  usage : AgentUsage := {}
  error : Option Text := none

/-- One turn of the loop of `chatViaCopilotSdk`. -/
def ChatResult.receive (result : ChatResult) : StreamChatEvent → ChatResult
  | .text text =>
    if text = [] then result else { result with textAcc := result.textAcc.append text }
  | .done usage =>
    { result with usage := { result.usage with
      inputTokens := usage.inputTokens
      outputTokens := usage.outputTokens } }
  | .error error => { result with error := some error }

def chatViaCopilotSdk (events : List StreamChatEvent) : ChatResult :=
  events.foldl ChatResult.receive {}

end Flockctl.Copilot
