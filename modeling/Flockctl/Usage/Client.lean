import Flockctl.Collections.Deliveries
import Flockctl.TaskExecutor.Daemon

/-!
# What the client counts

`createAIClient.chat` reads the messages of one SDK stream. Each assistant message adds the usage of
the API message it belongs to, and after each addition a `usage` event carries the totals so far.
The SDK sends one assistant message for every content block, so an API message may come more than
once, with the same id and the same usage.
-/

open scoped BigOperators

namespace Flockctl.Usage

open Collections
open TaskExecutor.Daemon (ErrorName)

/-- `AgentUsage`. -/
@[ext] structure AgentUsage where
  inputTokens : ℕ := 0
  outputTokens : ℕ := 0
  cacheCreationInputTokens : ℕ := 0
  cacheReadInputTokens : ℕ := 0
  deriving DecidableEq, Repr

namespace AgentUsage

instance : Zero AgentUsage := ⟨{}⟩

instance : Add AgentUsage where
  add a b :=
    { inputTokens := a.inputTokens + b.inputTokens
      outputTokens := a.outputTokens + b.outputTokens
      cacheCreationInputTokens := a.cacheCreationInputTokens + b.cacheCreationInputTokens
      cacheReadInputTokens := a.cacheReadInputTokens + b.cacheReadInputTokens }

@[simp] theorem zero_inputTokens : (0 : AgentUsage).inputTokens = 0 := rfl
@[simp] theorem zero_outputTokens : (0 : AgentUsage).outputTokens = 0 := rfl
@[simp] theorem zero_cacheCreationInputTokens :
    (0 : AgentUsage).cacheCreationInputTokens = 0 := rfl
@[simp] theorem zero_cacheReadInputTokens : (0 : AgentUsage).cacheReadInputTokens = 0 := rfl

@[simp] theorem add_inputTokens (a b : AgentUsage) :
    (a + b).inputTokens = a.inputTokens + b.inputTokens := rfl
@[simp] theorem add_outputTokens (a b : AgentUsage) :
    (a + b).outputTokens = a.outputTokens + b.outputTokens := rfl
@[simp] theorem add_cacheCreationInputTokens (a b : AgentUsage) :
    (a + b).cacheCreationInputTokens =
      a.cacheCreationInputTokens + b.cacheCreationInputTokens := rfl
@[simp] theorem add_cacheReadInputTokens (a b : AgentUsage) :
    (a + b).cacheReadInputTokens = a.cacheReadInputTokens + b.cacheReadInputTokens := rfl

instance : AddCommMonoid AgentUsage where
  add_assoc a b c := by ext <;> simp [Nat.add_assoc]
  zero_add a := by ext <;> simp
  add_zero a := by ext <;> simp
  add_comm a b := by ext <;> simp [Nat.add_comm]
  nsmul := nsmulRec

instance : IsLeftCancelAdd AgentUsage where
  add_left_cancel a b c h := by
    have h' := AgentUsage.ext_iff.mp h
    simp only [add_inputTokens, add_outputTokens, add_cacheCreationInputTokens,
      add_cacheReadInputTokens, Nat.add_left_cancel_iff] at h'
    exact AgentUsage.ext_iff.mpr h'

/-- No usage makes up for another. -/
theorem eq_zero_of_add_eq_zero {a b : AgentUsage} (h : a + b = 0) : a = 0 := by
  have h' := AgentUsage.ext_iff.mp h
  simp only [add_inputTokens, add_outputTokens, add_cacheCreationInputTokens,
    add_cacheReadInputTokens, zero_inputTokens, zero_outputTokens, zero_cacheCreationInputTokens,
    zero_cacheReadInputTokens, Nat.add_eq_zero_iff] at h'
  ext
  · exact h'.1.1
  · exact h'.2.1.1
  · exact h'.2.2.1.1
  · exact h'.2.2.2.1

instance : Subsingleton (AddUnits AgentUsage) where
  allEq a b := by
    ext1
    rw [eq_zero_of_add_eq_zero a.add_neg, eq_zero_of_add_eq_zero b.add_neg]

/-- The zero test of the chat handlers: `inputTokens > 0 || outputTokens > 0`. -/
def counts (usage : AgentUsage) : Bool := usage.inputTokens > 0 || usage.outputTokens > 0

theorem counts_zero : counts 0 = false := rfl

theorem counts_add (a b : AgentUsage) : counts (a + b) = (counts a || counts b) := by
  rw [Bool.eq_iff_iff]
  simp only [counts, add_inputTokens, add_outputTokens, gt_iff_lt, Bool.or_eq_true,
    decide_eq_true_eq]
  omega

/-- A sum passes the zero test exactly when a summand does. -/
theorem counts_sum (usages : List AgentUsage) : counts usages.sum = usages.any counts := by
  induction usages with
  | nil => rfl
  | cons usage usages ih => rw [List.sum_cons, counts_add, ih, List.any_cons]

end AgentUsage

/-- The `usage` of an API message; a count that is missing reads as zero. -/
structure ApiUsage where
  inputTokens : Option ℕ := none
  outputTokens : Option ℕ := none
  cacheCreationInputTokens : Option ℕ := none
  cacheReadInputTokens : Option ℕ := none
  deriving DecidableEq, Repr

def ApiUsage.read (usage : ApiUsage) : AgentUsage where
  inputTokens := usage.inputTokens.getD 0
  outputTokens := usage.outputTokens.getD 0
  cacheCreationInputTokens := usage.cacheCreationInputTokens.getD 0
  cacheReadInputTokens := usage.cacheReadInputTokens.getD 0

structure BetaMessage where
  id : String
  usage : Option ApiUsage
  deriving DecidableEq, Repr

/-- The usage field of an API message; without one there is nothing to count. -/
def BetaMessage.tokens (message : BetaMessage) : AgentUsage :=
  (message.usage.map ApiUsage.read).getD 0

structure ResultMessage where
  isError : Bool := false
  subtype : Option String := none
  result : Option String := none
  deriving DecidableEq, Repr

/-- `isErrorResult`. -/
def ResultMessage.isErrorResult (message : ResultMessage) : Bool :=
  message.isError || message.subtype.any fun subtype ↦ subtype.startsWith "error_"

/-- `resultText || "SDK " + subtypeStr`. -/
def ResultMessage.errorText (message : ResultMessage) : String :=
  match message.result with
  | some text => if text = "" then "SDK " ++ message.subtype.getD "error" else text
  | none => "SDK " ++ message.subtype.getD "error"

inductive SdkMessage
  | assistant (message : BetaMessage)
  | result (message : ResultMessage)
  | other
  deriving DecidableEq, Repr

def SdkMessage.apiMessage : SdkMessage → Option BetaMessage
  | .assistant message => some message
  | .result _ | .other => none

def SdkMessage.isResult : SdkMessage → Bool
  | .result _ => true
  | .assistant _ | .other => false

/-- `AbortReason`. -/
inductive AbortReason
  | user
  | timeout
  | shutdown
  deriving DecidableEq, Repr

structure JsError where
  name : ErrorName := .other
  message : String
  reason : Option AbortReason := none
  deriving DecidableEq, Repr

/-- One round of the `for await` loop: whether the signal is aborted by then, and the message. -/
structure Yield where
  aborted : Bool := false
  message : SdkMessage
  deriving DecidableEq, Repr

/-- How the iterator ends when it is not left before. -/
inductive StreamEnd
  | done
  | threw (err : JsError)
  deriving DecidableEq, Repr

/-- `ChatResult`. -/
structure ChatResult where
  text : String
  usage : Option AgentUsage
  toolCalls : List String := []

/-- The totals of a call, its `usage` events, oldest first, and the text of the result. -/
structure ClientState where
  totals : AgentUsage := 0
  events : List AgentUsage := []
  resultText : String := ""

/-- The block that adds the usage of an assistant message; without usage it does nothing. -/
def ClientState.countMessage (s : ClientState) (message : BetaMessage) : ClientState :=
  match message.usage with
  | none => s
  | some usage =>
    { s with totals := s.totals + usage.read, events := s.events ++ [s.totals + usage.read] }

/-- The `for await` loop. -/
def chatLoop (finish : StreamEnd) : ClientState → List Yield → ClientState × Except JsError Unit
  | s, [] =>
    match finish with
    | .done => (s, .ok ())
    | .threw err => (s, .error err)
  | s, round :: rounds =>
    if round.aborted then (s, .error { name := .abortError, message := "Task cancelled" })
    else
      match round.message with
      | .assistant message => chatLoop finish (s.countMessage message) rounds
      | .other => chatLoop finish s rounds
      | .result message =>
        let finished : ClientState :=
          { s with events := s.events ++ [s.totals], resultText := message.result.getD "" }
        -- the result is terminal: what the stream still holds is not read
        if message.isErrorResult then (finished, .error { message := message.errorText })
        else (finished, .ok ())

/-- The `catch` block: only an abort keeps its name. -/
def streamError (err : JsError) : JsError :=
  if err.name = .abortError then err else { message := "AI stream error: " ++ err.message }

/-- `chat`: the usage events and the result. -/
def chat (rounds : List Yield) (finish : StreamEnd) :
    List AgentUsage × Except JsError ChatResult :=
  match chatLoop finish {} rounds with
  | (s, .error err) => (s.events, .error (streamError err))
  | (s, .ok ()) => (s.events, .ok { text := s.resultText, usage := some s.totals })

/-- The loop does not go on after this round. -/
def Yield.stops (round : Yield) : Bool := round.aborted || round.message.isResult

/-- The API messages that are counted. -/
def heard (rounds : List Yield) : List BetaMessage :=
  (rounds.takeWhile fun round ↦ !round.stops).filterMap fun round ↦ round.message.apiMessage

/-- The API message, if any, that the loop receives and drops because the signal is aborted. -/
def dropped (rounds : List Yield) : List BetaMessage :=
  (rounds.find? Yield.stops).toList.filterMap fun round ↦ round.message.apiMessage

/-- The error that ends the loop, if one does. -/
def stopError (rounds : List Yield) (finish : StreamEnd) : Option JsError :=
  match rounds.find? Yield.stops with
  | none =>
    match finish with
    | .done => none
    | .threw err => some err
  | some round =>
    if round.aborted then some { name := .abortError, message := "Task cancelled" }
    else
      match round.message with
      | .result message =>
        if message.isErrorResult then some { message := message.errorText } else none
      | _ => none

def endedBy : Option JsError → Except JsError Unit
  | none => .ok ()
  | some err => .error err

def tokensOf (messages : List BetaMessage) : AgentUsage := (messages.map BetaMessage.tokens).sum

@[simp] theorem tokensOf_nil : tokensOf [] = 0 := rfl

@[simp] theorem tokensOf_cons (message : BetaMessage) (messages : List BetaMessage) :
    tokensOf (message :: messages) = message.tokens + tokensOf messages := rfl

theorem countMessage_totals (s : ClientState) (message : BetaMessage) :
    (s.countMessage message).totals = s.totals + message.tokens := by
  unfold ClientState.countMessage BetaMessage.tokens
  cases message.usage with
  | none => simp
  | some usage => rfl

/-- The newest usage event carries the totals; before the first one they are zero. -/
def ClientState.Announced (s : ClientState) : Prop :=
  s.events.getLast?.getD 0 = s.totals

theorem announced_countMessage {s : ClientState} (h : s.Announced) (message : BetaMessage) :
    (s.countMessage message).Announced := by
  unfold ClientState.countMessage
  cases message.usage with
  | none => exact h
  | some usage => simp [ClientState.Announced]

/-- The loop counts what it hears, announces it, and ends with the stopping error. -/
theorem chatLoop_spec (finish : StreamEnd) (s : ClientState) (rounds : List Yield)
    (h : s.Announced) :
    (chatLoop finish s rounds).1.Announced ∧
    (chatLoop finish s rounds).1.totals = s.totals + tokensOf (heard rounds) ∧
    (chatLoop finish s rounds).2 = endedBy (stopError rounds finish) := by
  induction rounds generalizing s with
  | nil =>
    cases finish with
    | done => exact ⟨h, by simp [chatLoop, heard], rfl⟩
    | threw err => exact ⟨h, by simp [chatLoop, heard], rfl⟩
  | cons round rounds ih =>
    obtain ⟨aborted, message⟩ := round
    cases aborted with
    | true =>
      refine ⟨by simpa [chatLoop] using h, ?_, ?_⟩
      · simp [chatLoop, heard, Yield.stops]
      · simp [chatLoop, stopError, Yield.stops, endedBy]
    | false =>
      cases message with
      | assistant message =>
        obtain ⟨hlast, htotals, hend⟩ := ih _ (announced_countMessage h message)
        refine ⟨by simpa [chatLoop] using hlast, ?_, ?_⟩
        · have hheard : heard (⟨false, .assistant message⟩ :: rounds) =
              message :: heard rounds := by
            simp [heard, Yield.stops, SdkMessage.isResult, SdkMessage.apiMessage]
          rw [hheard, tokensOf_cons, ← add_assoc, ← countMessage_totals]
          simpa [chatLoop] using htotals
        · simpa [chatLoop, stopError, Yield.stops, SdkMessage.isResult] using hend
      | other =>
        obtain ⟨hlast, htotals, hend⟩ := ih s h
        refine ⟨by simpa [chatLoop] using hlast, ?_, ?_⟩
        · simpa [chatLoop, heard, Yield.stops, SdkMessage.isResult, SdkMessage.apiMessage]
            using htotals
        · simpa [chatLoop, stopError, Yield.stops, SdkMessage.isResult] using hend
      | result message =>
        cases herror : message.isErrorResult <;>
          simp [chatLoop, heard, stopError, Yield.stops, SdkMessage.isResult, herror,
            ClientState.Announced, endedBy]

/-- What a call announces last is what it heard, and its answer carries the same counts. -/
theorem chat_spec (rounds : List Yield) (finish : StreamEnd) :
    (chat rounds finish).1.getLast?.getD 0 = tokensOf (heard rounds) ∧
    match stopError rounds finish with
    | none => ∃ text, (chat rounds finish).2 =
        .ok { text := text, usage := some (tokensOf (heard rounds)) }
    | some err => (chat rounds finish).2 = .error (streamError err) := by
  obtain ⟨hlast, htotals, hend⟩ := chatLoop_spec finish {} rounds rfl
  unfold chat
  revert hlast htotals hend
  cases chatLoop finish {} rounds with
  | mk s ended =>
    intro hlast htotals hend
    have htotals' : s.totals = tokensOf (heard rounds) := by
      simpa using htotals
    have hlast' : s.events.getLast?.getD 0 = s.totals := hlast
    cases herror : stopError rounds finish with
    | none =>
      have hok : ended = .ok () := by simpa [herror, endedBy] using hend
      subst hok
      exact ⟨hlast'.trans htotals', s.resultText, by rw [← htotals']⟩
    | some err =>
      have herr : ended = .error err := by simpa [herror, endedBy] using hend
      subst herr
      exact ⟨hlast'.trans htotals', rfl⟩

end Flockctl.Usage
