import Flockctl.Usage.Client

/-!
# Who books the usage of a run

`AgentSession.run` reports the totals of its provider calls, and four callers write a row of
`usage_records`: the task executor after a run that returned, the two chat routes after every run
they do not park, and the resume of a parked chat after a run that returned. The chat callers take
the totals from the newest `usage` event and leave a row without input and output tokens out.

The provider, the model and the price are left out of a row: they are computed from the key, the
model and the counts.
-/

namespace Flockctl.Usage

open Collections
open TaskExecutor.Daemon (ErrorName RunError SessionOutcome)

/-- One call of `provider.chat`: whether the session is aborted before it, the usage events, the
answer, and how running its tool calls ends. -/
structure ProviderCall where
  aborted : Bool := false
  events : List AgentUsage
  answer : Except JsError ChatResult
  tools : Except JsError Unit := .ok ()

/-- What a session emits as `usage`, oldest first, and what `run` returns or throws. -/
structure SessionRun where
  emitted : List AgentUsage := []
  result : Except JsError AgentUsage

def MAX_AGENTIC_ITERATIONS : ℕ := 200

/-- The totals after a call: the newest event replaces them, and without an event the usage of the
answer is added. -/
def turnTotals (totals : AgentUsage) (events : List AgentUsage) (response : ChatResult) :
    AgentUsage :=
  match events.getLast? with
  | some usage => usage
  | none => totals + response.usage.getD 0

/-- The agentic loop; `remaining` rounds are left before it gives up. -/
def agenticLoop (calls : ℕ → ProviderCall) :
    ℕ → ℕ → AgentUsage → List AgentUsage → SessionRun
  | 0, _, _, emitted =>
    { emitted := emitted
      result := .error { message := "exceeded MAX_AGENTIC_ITERATIONS (200)" } }
  | remaining + 1, iteration, totals, emitted =>
    if (calls iteration).aborted then
      { emitted := emitted
        result := .error { name := .abortError, message := "This operation was aborted" } }
    else
      match (calls iteration).answer with
      | .error err => { emitted := emitted ++ (calls iteration).events, result := .error err }
      | .ok response =>
        let totals := turnTotals totals (calls iteration).events response
        let emitted := emitted ++ (calls iteration).events ++ [totals]
        if response.toolCalls = [] then { emitted := emitted, result := .ok totals }
        else
          match (calls iteration).tools with
          | .error err => { emitted := emitted, result := .error err }
          | .ok () => agenticLoop calls remaining (iteration + 1) totals emitted

/-- `abortMessage`. -/
def abortMessage (timeoutSeconds : Option ℕ) : AbortReason → String
  | .timeout => "Task timed out after " ++ (timeoutSeconds.map toString).getD "?" ++ "s"
  | .shutdown => "Daemon shutting down — task will resume on next start"
  | .user => "Cancelled by user"

/-- The `catch` block of `run`: an abort is thrown again under the reason of the session. -/
def mapError (timeoutSeconds : Option ℕ) (abortReason : Option AbortReason) (err : JsError) :
    JsError :=
  match abortReason with
  | none => err
  | some reason =>
    if err.name = .abortError ∨ err.name = .timeoutError then
      { name := if reason = .timeout then .timeoutError else .abortError
        message := abortMessage timeoutSeconds reason
        reason := some reason }
    else err

/-- `AgentSession.run`. -/
def sessionRun (timeoutSeconds : Option ℕ) (abortReason : Option AbortReason)
    (calls : ℕ → ProviderCall) : SessionRun :=
  let ran := agenticLoop calls MAX_AGENTIC_ITERATIONS 0 0 []
  { ran with result := ran.result.mapError (mapError timeoutSeconds abortReason) }

structure UsageRecord where
  taskId : Option ℕ := none
  chatMessageId : Option ℕ := none
  projectId : Option ℕ := none
  usage : AgentUsage
  deriving DecidableEq, Repr

section Callers

variable (classifyLimit : JsError → Option ℕ)

/-- The error of a run, as `_run` looks at it. -/
def runError (err : JsError) : RunError where
  name := err.name
  shutdown := err.reason = some .shutdown
  limit := classifyLimit err

/-- `_run` from `session.run()` on: how the session ended, and the rows. `saveUsage` stands right
after `session.run()` in the `try` block, so an error skips it. -/
def runTask (taskId : ℕ) (projectId : Option ℕ) (ran : SessionRun) :
    SessionOutcome × List UsageRecord :=
  match ran.result with
  | .ok metrics =>
    (.success, [{ taskId := some taskId, projectId := projectId, usage := metrics }])
  | .error err => (.error (runError classifyLimit err), [])

/-- The insert of the chat callers. -/
def recordTurn (chatMessageId projectId : Option ℕ) (finalMetrics : Option AgentUsage) :
    List UsageRecord :=
  let usage := finalMetrics.getD 0
  if usage.counts then
    [{ chatMessageId := chatMessageId, projectId := projectId, usage := usage }]
  else []

/-- `POST /chats/:id/messages`: a run that meets a provider limit is parked before the insert. -/
def postMessage (chatMessageId : ℕ) (projectId : Option ℕ) (ran : SessionRun) :
    List UsageRecord :=
  match ran.result with
  | .error err =>
    match classifyLimit err with
    | some _ => []
    | none => recordTurn (some chatMessageId) projectId ran.emitted.getLast?
  | .ok _ => recordTurn (some chatMessageId) projectId ran.emitted.getLast?

/-- `POST /chats/:id/messages/stream`: a run that is parked goes on to the insert. -/
def postMessageStream (chatMessageId : ℕ) (projectId : Option ℕ) (ran : SessionRun) :
    List UsageRecord :=
  recordTurn (some chatMessageId) projectId ran.emitted.getLast?

/-- `resumeChat`: every error skips the insert. -/
def resumeChat (projectId : Option ℕ) (ran : SessionRun) : List UsageRecord :=
  match ran.result with
  | .ok _ => recordTurn none projectId ran.emitted.getLast?
  | .error _ => []

end Callers

/-- A stream of SDK messages and how it ends. An API message comes with one usage, however many
assistant messages it is sent as. -/
structure Delivery where
  rounds : List Yield
  finish : StreamEnd
  consistent : Consistent ((rounds.filterMap fun round ↦ round.message.apiMessage).map
    fun message ↦ (message.id, message.tokens))

/-- The Claude Code provider: the SDK runs the tools, so an answer has no tool calls. -/
def Delivery.call (aborted : Bool) (delivery : Delivery) : ProviderCall where
  aborted := aborted
  events := (chat delivery.rounds delivery.finish).1
  answer := (chat delivery.rounds delivery.finish).2

inductive Caller
  | task (taskId : ℕ)
  | message (chatMessageId : ℕ)
  | stream (chatMessageId : ℕ)
  | resume
  deriving DecidableEq, Repr

/-- A task run or a chat turn: who runs the session, what aborts it, and what the SDK delivers on
each call. `cancelled` says before which calls the session is aborted. -/
structure Run where
  caller : Caller
  projectId : Option ℕ := none
  timeoutSeconds : Option ℕ := none
  abortReason : Option AbortReason := none
  cancelled : ℕ → Bool := fun _ ↦ false
  deliveries : ℕ → Delivery

namespace Run

def session (run : Run) : SessionRun :=
  sessionRun run.timeoutSeconds run.abortReason fun i ↦
    (run.deliveries i).call (run.cancelled i)

/-- The rows of `usage_records` inserted for the run. -/
def rows (classifyLimit : JsError → Option ℕ) (run : Run) : List UsageRecord :=
  match run.caller with
  | .task taskId => (runTask classifyLimit taskId run.projectId run.session).2
  | .message chatMessageId =>
    postMessage classifyLimit chatMessageId run.projectId run.session
  | .stream chatMessageId => postMessageStream chatMessageId run.projectId run.session
  | .resume => resumeChat run.projectId run.session

/-- The token counts of the rows. -/
def booked (classifyLimit : JsError → Option ℕ) (run : Run) : AgentUsage :=
  ((run.rows classifyLimit).map UsageRecord.usage).sum

end Run

end Flockctl.Usage

/-!
# When every spent token is booked once

A run spends the usage of every API message it receives. What is booked is the sum over the
assistant messages that were counted, and only if the caller writes a row. The two agree when the
row is written and no API message comes twice, and when no row is written and nothing was used.
-/

namespace Flockctl.Usage

open Collections

def entries (messages : List BetaMessage) : List (String × AgentUsage) :=
  messages.map fun message ↦ (message.id, message.tokens)

theorem entries_append (xs ys : List BetaMessage) :
    entries (xs ++ ys) = entries xs ++ entries ys := List.map_append

theorem map_snd_entries (messages : List BetaMessage) :
    (entries messages).map Prod.snd = messages.map BetaMessage.tokens := by
  simp [entries, Function.comp_def]

theorem sum_entries (messages : List BetaMessage) :
    ((entries messages).map Prod.snd).sum = tokensOf messages := by
  rw [map_snd_entries, tokensOf]

/-- A sum of usages passes the zero test when an API message does. -/
theorem counts_tokensOf (messages : List BetaMessage) :
    (tokensOf messages).counts = true ↔ ∃ message ∈ messages, message.tokens.counts = true := by
  rw [tokensOf, AgentUsage.counts_sum, List.any_map, List.any_eq_true]
  rfl

theorem heard_subset (rounds : List Yield) :
    heard rounds ⊆ rounds.filterMap fun round ↦ round.message.apiMessage := by
  intro message hmessage
  obtain ⟨round, hround, happ⟩ := List.mem_filterMap.mp hmessage
  exact List.mem_filterMap.mpr ⟨round, (List.takeWhile_sublist _).subset hround, happ⟩

theorem dropped_subset (rounds : List Yield) :
    dropped rounds ⊆ rounds.filterMap fun round ↦ round.message.apiMessage := by
  intro message hmessage
  obtain ⟨round, hround, happ⟩ := List.mem_filterMap.mp hmessage
  exact List.mem_filterMap.mpr
    ⟨round, List.mem_of_find?_eq_some (Option.mem_toList.mp hround), happ⟩

namespace Run

variable (classifyLimit : JsError → Option ℕ) (run : Run)

/-- The API messages of the run that are counted. The provider answers without tool calls, so the
loop makes one call. -/
def counted : List BetaMessage :=
  if run.cancelled 0 then [] else heard (run.deliveries 0).rounds

/-- The API message that arrives after an abort. -/
def unheard : List BetaMessage :=
  if run.cancelled 0 then [] else dropped (run.deliveries 0).rounds

def received : List BetaMessage := run.counted ++ run.unheard

/-- What the run spent: the usage of every API message received, once. -/
def spent : AgentUsage := due (entries run.received)

/-- The error the run ends with, if one. -/
def failure : Option JsError :=
  (if run.cancelled 0 then
      some { name := .abortError, message := "This operation was aborted" }
    else (stopError (run.deliveries 0).rounds (run.deliveries 0).finish).map streamError).map
    (mapError run.timeoutSeconds run.abortReason)

/-- The caller writes a row. -/
def Books : Prop :=
  match run.caller with
  | .task _ => run.failure = none
  | .message _ =>
    (∀ err, run.failure = some err → classifyLimit err = none) ∧
      ∃ message ∈ run.counted, message.tokens.counts = true
  | .stream _ => ∃ message ∈ run.counted, message.tokens.counts = true
  | .resume => run.failure = none ∧ ∃ message ∈ run.counted, message.tokens.counts = true

/-- Either a row is written and what the repeated messages add is what an abort keeps from being
counted, which is nothing in both cases where no API message comes twice and none arrives after an
abort; or no row is written and no received message used a token. -/
def CountsOnce : Prop :=
  (run.Books classifyLimit →
    surplus (entries run.counted) = freshDue (entries run.counted) (entries run.unheard)) ∧
  (¬run.Books classifyLimit → ∀ message ∈ run.received, message.tokens = 0)

theorem consistent_received : Consistent (entries run.received) := by
  apply (run.deliveries 0).consistent.of_subset
  apply List.map_subset
  rw [received, counted, unheard]
  split
  · simp
  · exact List.append_subset.mpr ⟨heard_subset _, dropped_subset _⟩

theorem consistent_counted : Consistent (entries run.counted) := by
  apply run.consistent_received.of_subset
  rw [received, entries_append]
  exact List.subset_append_left _ _

/-- The session reports what was counted, in its newest event and in its result. -/
theorem session_spec :
    run.session.emitted.getLast?.getD 0 = tokensOf run.counted ∧
    run.session.result =
      match run.failure with
      | none => .ok (tokensOf run.counted)
      | some err => .error err := by
  unfold session sessionRun MAX_AGENTIC_ITERATIONS agenticLoop counted failure
  dsimp only
  cases hcancelled : run.cancelled 0 with
  | true => exact ⟨rfl, rfl⟩
  | false =>
    obtain ⟨hlast, hanswer⟩ := chat_spec (run.deliveries 0).rounds (run.deliveries 0).finish
    cases herror : stopError (run.deliveries 0).rounds (run.deliveries 0).finish with
    | some err =>
      rw [herror] at hanswer
      dsimp only at hanswer
      simp only [Delivery.call, hanswer, Bool.false_eq_true, if_false, List.nil_append,
        Option.map_some]
      exact ⟨hlast, rfl⟩
    | none =>
      rw [herror] at hanswer
      obtain ⟨text, htext⟩ := hanswer
      have htotals : turnTotals 0 (chat (run.deliveries 0).rounds (run.deliveries 0).finish).1
          { text := text, usage := some (tokensOf (heard (run.deliveries 0).rounds)) } =
          tokensOf (heard (run.deliveries 0).rounds) := by
        rw [← hlast, turnTotals]
        cases (chat (run.deliveries 0).rounds (run.deliveries 0).finish).1.getLast? with
        | none => simp
        | some usage => rfl
      simp only [Delivery.call, htext, Bool.false_eq_true, if_false, if_true, htotals,
        Option.map_none]
      exact ⟨by simp, rfl⟩

theorem booked_recordTurn (chatMessageId projectId : Option ℕ) (finalMetrics : Option AgentUsage) :
    ((recordTurn chatMessageId projectId finalMetrics).map UsageRecord.usage).sum =
      if (finalMetrics.getD 0).counts then finalMetrics.getD 0 else 0 := by
  unfold recordTurn
  dsimp only
  split
  · simp
  · rfl

/-- A caller that writes a row books everything that was counted. -/
theorem booked_of_books (h : run.Books classifyLimit) :
    run.booked classifyLimit = tokensOf run.counted := by
  obtain ⟨hlast, hresult⟩ := run.session_spec
  unfold Books at h
  unfold booked rows
  cases hcaller : run.caller with
  | task taskId =>
    rw [hcaller] at h
    dsimp only at h
    rw [h] at hresult
    simp [runTask, hresult]
  | message chatMessageId =>
    rw [hcaller] at h
    obtain ⟨hlimit, hcounts⟩ := h
    rw [← counts_tokensOf] at hcounts
    cases hfailure : run.failure with
    | none =>
      rw [hfailure] at hresult
      simp [postMessage, hresult, booked_recordTurn, hlast, hcounts]
    | some err =>
      rw [hfailure] at hresult
      simp [postMessage, hresult, hlimit err hfailure, booked_recordTurn, hlast, hcounts]
  | stream chatMessageId =>
    rw [hcaller] at h
    dsimp only at h
    rw [← counts_tokensOf] at h
    simp [postMessageStream, booked_recordTurn, hlast, h]
  | resume =>
    rw [hcaller] at h
    obtain ⟨hfailure, hcounts⟩ := h
    rw [← counts_tokensOf] at hcounts
    rw [hfailure] at hresult
    simp [resumeChat, hresult, booked_recordTurn, hlast, hcounts]

/-- A caller that writes no row books nothing. -/
theorem booked_of_not_books (h : ¬run.Books classifyLimit) : run.booked classifyLimit = 0 := by
  obtain ⟨hlast, hresult⟩ := run.session_spec
  unfold Books at h
  unfold booked rows
  cases hcaller : run.caller with
  | task taskId =>
    rw [hcaller] at h
    obtain ⟨err, herr⟩ := Option.ne_none_iff_exists'.mp h
    rw [herr] at hresult
    simp [runTask, hresult]
  | message chatMessageId =>
    rw [hcaller] at h
    dsimp only at h
    rw [← counts_tokensOf] at h
    cases hfailure : run.failure with
    | none =>
      rw [hfailure] at hresult
      simp_all [postMessage, booked_recordTurn]
    | some err =>
      rw [hfailure] at hresult
      cases hlimit : classifyLimit err with
      | none => simp_all [postMessage, booked_recordTurn]
      | some resumeAt => simp [postMessage, hresult, hlimit]
  | stream chatMessageId =>
    rw [hcaller] at h
    dsimp only at h
    rw [← counts_tokensOf] at h
    simp [postMessageStream, booked_recordTurn, hlast, h]
  | resume =>
    rw [hcaller] at h
    dsimp only at h
    rw [← counts_tokensOf] at h
    cases hfailure : run.failure with
    | none =>
      rw [hfailure] at hresult
      simp_all [resumeChat, booked_recordTurn]
    | some err =>
      rw [hfailure] at hresult
      simp [resumeChat, hresult]

/-- The rows of a run hold what the run spent, once, exactly when the run counts once. -/
theorem booked_eq_spent_iff :
    run.booked classifyLimit = run.spent ↔ run.CountsOnce classifyLimit := by
  have hspent : run.spent = due (entries run.counted) +
      freshDue (entries run.counted) (entries run.unheard) := by
    rw [spent, received, entries_append, due_append]
  by_cases hbooks : run.Books classifyLimit
  · have hbooked : run.booked classifyLimit =
        due (entries run.counted) + surplus (entries run.counted) := by
      rw [run.booked_of_books classifyLimit hbooks, ← sum_entries]
      exact sum_eq_due_add_surplus run.consistent_counted
    calc
      run.booked classifyLimit = run.spent
          ↔ surplus (entries run.counted) =
              freshDue (entries run.counted) (entries run.unheard) := by
        rw [hbooked, hspent, add_left_cancel_iff]
      _ ↔ run.CountsOnce classifyLimit := by
        simp [CountsOnce, hbooks]
  · calc
      run.booked classifyLimit = run.spent ↔ run.spent = 0 := by
        rw [run.booked_of_not_books classifyLimit hbooks, eq_comm]
      _ ↔ ∀ message ∈ run.received, message.tokens = 0 := by
        rw [spent, due_eq_zero_iff run.consistent_received]
        simp [entries]
      _ ↔ run.CountsOnce classifyLimit := by
        simp [CountsOnce, hbooks]

/-- One API message sent as two assistant messages, a text block and a tool call, is booked twice. -/
theorem not_booked_eq_spent : ¬∀ (classifyLimit : JsError → Option ℕ) (run : Run),
    run.booked classifyLimit = run.spent := by
  intro h
  let message : BetaMessage :=
    { id := "msg_1", usage := some { inputTokens := some 10, outputTokens := some 5 } }
  let delivery : Delivery :=
    { rounds := [{ message := .assistant message }, { message := .assistant message },
        { message := .result { result := some "done" } }]
      finish := .done
      consistent := by decide }
  have htwice := h (fun _ ↦ none) { caller := .task 1, deliveries := fun _ ↦ delivery }
  revert htwice
  decide +kernel

end Run

end Flockctl.Usage
