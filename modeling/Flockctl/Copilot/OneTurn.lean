import Flockctl.Chats.BoundedString
import Flockctl.Copilot.Turn

/-!
# One turn, exactly

Whatever the order of the events, the caller gets the texts of the turn, each once, and behind them
one event that tells how the turn ended. The generator returns once the call has settled.
-/

namespace Flockctl.Copilot

open Chats.Streaming Transition

namespace Turn

variable {t : Turn}

/-- The texts to hand out are the contents of the messages, with what is streamed of the last. -/
def IsFull (t : Turn) : Prop := t.texts.flatten = t.contents.flatten ++ t.streamed.getD []

theorem texts_conclude (event : StreamChatEvent) :
    (t.conclude event).texts = t.texts ∧ (t.conclude event).contents = t.contents ∧
      (t.conclude event).streamed = t.streamed ∧ (t.conclude event).latched = t.latched ∧
      (t.conclude event).hasStreamed = t.hasStreamed ∧ (t.conclude event).usage = t.usage := by
  unfold conclude
  split <;> simp

theorem isFull_step (h : t.IsFull) (event : StreamStep) (hfollows : t.FollowsSdk event) :
    (t.step event).IsFull := by
  unfold IsFull at h ⊢
  cases event with
  | delta chunk =>
    simp only [step]
    split
    · unfold sendDelta
      split
      · simpa using h
      · simp [h]
    · exact h
  | message content =>
    simp only [step]
    split
    · rename_i hgoing
      simp only [closeMessage]
      rcases hfollows hgoing with hnone | hsome
      · rw [hnone] at h ⊢
        by_cases hnil : extractMessageText content = []
        · simpa [hnil] using h
        · simp only [Option.getD_none, List.append_nil] at h
          simp [hnil, h]
      · rw [hsome] at h ⊢
        simp only [Option.getD_some] at h ⊢
        by_cases hnil : extractMessageText content = []
        · simpa [hnil] using h
        · simp [hnil, h]
    · exact h
  | usage data =>
    simp only [step]
    split <;> exact h
  | settle error =>
    simp only [step]
    split
    · exact h
    · obtain ⟨htexts, hcontents, hstreamed, -⟩ := texts_conclude (t := t) (runOutcome t.usage error)
      rw [htexts, hcontents, hstreamed]
      exact h
  | abort =>
    simp only [step]
    split
    · exact h
    · obtain ⟨htexts, hcontents, hstreamed, -⟩ := texts_conclude (t := t) abortedByCaller
      rw [htexts, hcontents, hstreamed]
      exact h
  | _ => exact h

/-- The latch has kept nothing back. -/
structure IsOpen (t : Turn) : Prop where
  latched : t.latched = t.texts
  streamed : t.hasStreamed = false → t.streamed.getD [] = []

theorem isOpen_step (h : t.IsOpen) (event : StreamStep) (hunmixed : t.IsUnmixed event) :
    (t.step event).IsOpen := by
  cases event with
  | delta chunk =>
    simp only [step]
    split
    · unfold sendDelta
      split
      · exact ⟨h.latched, by simpa using h.streamed⟩
      · exact ⟨by simp [h.latched], by simp⟩
    · exact h
  | message content =>
    simp only [step]
    split
    · rename_i hgoing
      refine ⟨?_, by simp [closeMessage]⟩
      simp only [closeMessage, h.latched]
      by_cases hstreamed : t.hasStreamed = true
      · rw [if_neg (by simp [hstreamed]), if_neg]
        rintro ⟨hnil, hcontent⟩
        exact hcontent (hunmixed hgoing hstreamed hnil)
      · have hfalse : t.hasStreamed = false := Bool.not_eq_true _ ▸ hstreamed
        simp [hfalse, h.streamed hfalse]
    · exact h
  | usage data =>
    simp only [step]
    split
    · exact ⟨h.latched, h.streamed⟩
    · exact h
  | settle error =>
    simp only [step]
    split
    · exact h
    · obtain ⟨htexts, -, hstreamed, hlatched, hhas, -⟩ :=
        texts_conclude (t := t) (runOutcome t.usage error)
      constructor
      · rw [hlatched, htexts]
        exact h.latched
      · rw [hhas, hstreamed]
        exact h.streamed
  | abort =>
    simp only [step]
    split
    · exact h
    · obtain ⟨htexts, -, hstreamed, hlatched, hhas, -⟩ := texts_conclude (t := t) abortedByCaller
      constructor
      · rw [hlatched, htexts]
        exact h.latched
      · rw [hhas, hstreamed]
        exact h.streamed
  | _ => exact ⟨h.latched, h.streamed⟩

/-- A turn that is done tells the sums of its usage. -/
def TellsUsage (t : Turn) : Prop :=
  ∀ usage, t.outcome = some (.done usage) → usage = ⟨t.usage.inputTokens, t.usage.outputTokens, 0⟩

theorem tellsUsage_conclude (h : t.TellsUsage) {event : StreamChatEvent}
    (hevent : ∀ usage, event = .done usage →
      usage = ⟨t.usage.inputTokens, t.usage.outputTokens, 0⟩) : (t.conclude event).TellsUsage := by
  unfold conclude
  split
  · intro usage husage
    exact hevent usage (Option.some.inj husage)
  · exact h

theorem tellsUsage_step (h : t.TellsUsage) (event : StreamStep) : (t.step event).TellsUsage := by
  cases event with
  | delta chunk =>
    simp only [step]
    split
    · unfold sendDelta
      split <;> exact h
    · exact h
  | message content =>
    simp only [step]
    split <;> exact h
  | usage data =>
    simp only [step]
    split
    · rename_i hgoing
      intro usage husage
      simp only [isGoing, Bool.and_eq_true, Option.isNone_iff_eq_none] at hgoing
      cases hgoing.2.symm.trans husage
    · exact h
  | settle error =>
    simp only [step]
    split
    · exact h
    · have hconclude : (t.conclude (runOutcome t.usage error)).TellsUsage := by
        apply tellsUsage_conclude h
        intro usage husage
        cases error with
        | none => exact (StreamChatEvent.done.inj husage).symm
        | some error => cases husage
      exact hconclude
  | abort =>
    simp only [step]
    split
    · exact h
    · have hconclude : (t.conclude abortedByCaller).TellsUsage := by
        apply tellsUsage_conclude h
        intro usage husage
        cases husage
      exact hconclude
  | _ => exact h

end Turn

/-! ## What was handed out -/

/-- Of texts, an end and more behind it, what stops at the first end is a part of texts and end. -/
theorem prefix_of_stopped {texts rest ys zs : List StreamChatEvent}
    {outcome : Option StreamChatEvent} (h : ys ++ zs = texts ++ outcome.toList ++ rest)
    (houtcome : ∀ event, outcome = some event → event.isTerminal = true)
    (hrest : outcome = none → rest = [])
    (hys : ∀ before last, ys = before ++ [last] →
      ∀ event ∈ before, event.isTerminal = false) : ys <+: texts ++ outcome.toList := by
  cases outcome with
  | none =>
    rw [hrest rfl, List.append_nil] at h
    exact ⟨zs, h⟩
  | some last =>
    have hprefix : ys <+: texts ++ [last] ++ rest := ⟨zs, h⟩
    rcases Nat.lt_or_ge (texts ++ [last]).length ys.length with hlong | hshort
    · -- The end would stand before the last of what was handed out.
      obtain ⟨more, rfl⟩ :=
        List.prefix_of_prefix_length_le ⟨rest, rfl⟩ hprefix (Nat.le_of_lt hlong)
      have hmore : more ≠ [] := by
        rintro rfl
        simp at hlong
      obtain ⟨before, final, rfl⟩ := (List.eq_nil_or_concat more).resolve_left hmore
      have hfalse := hys (texts ++ [last] ++ before) final (by simp) last (by simp)
      rw [houtcome last rfl] at hfalse
      cases hfalse
    · exact List.prefix_of_prefix_length_le hprefix ⟨rest, rfl⟩ hshort

/-- What ends with an end is all of texts and end. -/
theorem eq_of_ended {texts : List Text} {outcome : Option StreamChatEvent}
    {before : List StreamChatEvent} {last : StreamChatEvent}
    (h : before ++ [last] <+: texts.map .text ++ outcome.toList)
    (hlast : last.isTerminal = true) :
    before ++ [last] = texts.map .text ++ outcome.toList ∧ outcome = some last := by
  obtain ⟨rest, hrest⟩ := h
  have hnot : last ∉ texts.map StreamChatEvent.text := by
    intro hmem
    obtain ⟨text, -, rfl⟩ := List.mem_map.mp hmem
    cases hlast
  cases outcome with
  | none =>
    have hmem : last ∈ texts.map StreamChatEvent.text := by
      have hall : last ∈ before ++ [last] ++ rest := by simp
      rw [hrest] at hall
      simpa using hall
    exact absurd hmem hnot
  | some event =>
    rcases List.eq_nil_or_concat rest with rfl | ⟨front, final, rfl⟩
    · rw [List.append_nil] at hrest
      obtain ⟨-, heq⟩ := List.append_inj' hrest rfl
      exact ⟨hrest, congrArg some (List.singleton_inj.mp heq).symm⟩
    · rw [List.concat_eq_append, ← List.append_assoc] at hrest
      obtain ⟨hfront, -⟩ := List.append_inj' hrest rfl
      have hmem : last ∈ texts.map StreamChatEvent.text := by
        rw [← hfront]
        simp
      exact absurd hmem hnot

namespace CopilotStream

variable {s : CopilotStream} {t : Turn}

/-- The caller has been given a first part of what there is to deliver. -/
theorem isPrefix_yielded (h : s.Tracks t) (hopen : t.latched = t.texts) :
    s.yielded <+: t.deliveries := by
  obtain ⟨rest, hrest, hnil⟩ := h.pushed
  rw [hopen, pushed, List.append_assoc] at hrest
  apply prefix_of_stopped hrest h.terminal hnil
  intro before last hyielded event hevent
  have hfits := h.steady.fits
  have hmem : event ∈ s.yielded := by
    rw [hyielded]
    exact List.mem_append_left _ hevent
  cases hpoint : s.point with
  | handed handed =>
    rw [hpoint] at hfits
    cases handed with
    | none => exact absurd hfits id
    | some _ => exact hfits event hmem
  | unstarted =>
    rw [hpoint] at hfits
    exact hfits event hmem
  | waiting =>
    rw [hpoint] at hfits
    exact hfits event hmem
  | suspended final =>
    rw [hpoint] at hfits
    obtain ⟨front, hfront, hfalse⟩ := hfits
    obtain ⟨rfl, -⟩ := List.append_inj' (hyielded.symm.trans hfront) rfl
    exact hfalse event hevent
  | ending =>
    rw [hpoint] at hfits
    obtain ⟨front, final, hfront, -, hfalse⟩ := hfits
    obtain ⟨rfl, -⟩ := List.append_inj' (hyielded.symm.trans hfront) rfl
    exact hfalse event hevent
  | finished =>
    rw [hpoint] at hfits
    obtain ⟨front, final, hfront, -, hfalse⟩ := hfits
    obtain ⟨rfl, -⟩ := List.append_inj' (hyielded.symm.trans hfront) rfl
    exact hfalse event hevent

/-- Behind the loop, everything has been delivered. -/
theorem yielded_of_ended (h : s.Tracks t) (hopen : t.latched = t.texts)
    (hended : s.point = .ending ∨ s.point = .finished) :
    s.yielded = t.deliveries ∧ t.outcome.isSome = true := by
  have hfits := h.steady.fits
  have hlast : ∃ before last, s.yielded = before ++ [last] ∧ last.isTerminal = true := by
    rcases hended with hpoint | hpoint
    · rw [hpoint] at hfits
      obtain ⟨before, last, hyielded, hterminal, -⟩ := hfits
      exact ⟨before, last, hyielded, hterminal⟩
    · rw [hpoint] at hfits
      obtain ⟨before, last, hyielded, hterminal, -⟩ := hfits
      exact ⟨before, last, hyielded, hterminal⟩
  obtain ⟨before, last, hyielded, hterminal⟩ := hlast
  have hprefix := isPrefix_yielded h hopen
  rw [hyielded] at hprefix ⊢
  obtain ⟨hall, houtcome⟩ := eq_of_ended hprefix hterminal
  exact ⟨hall, by simp [houtcome]⟩

/-- The caller can come to the end of the loop by asking. -/
def MayEnd (s : CopilotStream) : Prop :=
  ∃ more, (∀ event ∈ more, event = .pull ∨ event = .resume) ∧
    ((run step s more).point = .ending ∨ (run step s more).point = .finished)

theorem mayEnd_of_step {event : StreamStep} (hevent : event = .pull ∨ event = .resume)
    (h : (s.step event).MayEnd) : s.MayEnd := by
  obtain ⟨more, hmore, hended⟩ := h
  refine ⟨event :: more, ?_, hended⟩
  intro other hother
  rcases List.mem_cons.mp hother with rfl | hrest
  · exact hevent
  · exact hmore other hrest

/-- After a yield, the queue gets shorter with each event that is handed out. -/
theorem mayEnd_of_suspended (h : s.Tracks t) (hdone : s.done = true) {last : StreamChatEvent}
    (hpoint : s.point = .suspended last) : s.MayEnd := by
  induction hqueue : s.queue generalizing s last with
  | nil =>
    have hterminal : last.isTerminal = true := by
      by_contra hnot
      have hfits := h.steady.fits
      rw [hpoint] at hfits
      obtain ⟨before, hyielded, hbefore⟩ := hfits
      refine queue_ne_nil h (by simp [hpoint, LoopPoint.held]) ?_ hdone hqueue
      intro event hevent
      rw [hyielded, List.mem_append, List.mem_singleton] at hevent
      rcases hevent with hevent | rfl
      · exact hbefore event hevent
      · exact Bool.not_eq_true _ ▸ hnot
    refine ⟨[.pull], by simp, Or.inl ?_⟩
    simp [step, hpoint, hterminal]
  | cons event queue ih =>
    by_cases hterminal : last.isTerminal = true
    · refine ⟨[.pull], by simp, Or.inl ?_⟩
      simp [step, hpoint, hterminal]
    · have hpull : s.step .pull = { s with queue := queue, point := .handed (some event) } := by
        simp [step, hpoint, hterminal, next, hqueue]
      apply mayEnd_of_step (Or.inl rfl)
      apply mayEnd_of_step (Or.inr rfl)
      apply ih (tracks_resume (tracks_pull h))
      · rw [hpull]
        exact hdone
      · rw [hpull]
        rfl
      · rw [hpull]
        rfl

/-- Once the turn has ended, a caller that goes on asking comes to the end of the loop. -/
theorem mayEnd_of_outcome (h : s.Tracks t) (houtcome : t.outcome.isSome = true) : s.MayEnd := by
  have hdone : s.done = true := h.done.trans houtcome
  cases hpoint : s.point with
  | unstarted =>
    rw [(h.steady.unstarted hpoint).2] at hdone
    cases hdone
  | waiting =>
    rw [(h.steady.waiting hpoint).2] at hdone
    cases hdone
  | suspended last => exact mayEnd_of_suspended h hdone hpoint
  | ending => exact ⟨[], by simp, Or.inl hpoint⟩
  | finished => exact ⟨[], by simp, Or.inr hpoint⟩
  | handed handed =>
    cases handed with
    | none =>
      have hfits := h.steady.fits
      rw [hpoint] at hfits
      exact absurd hfits id
    | some event =>
      have hresume : s.step .resume =
          { s with yielded := s.yielded ++ [event], point := .suspended event } := by
        simp [step, hpoint]
      apply mayEnd_of_step (Or.inr rfl)
      apply mayEnd_of_suspended (tracks_resume h)
      · rw [hresume]
        exact hdone
      · rw [hresume]

/-! ## One turn -/

/-- What the caller gets of a turn. -/
structure DeliversOneTurn (s : CopilotStream) (t : Turn) : Prop where
  /-- No event is lost, repeated or out of order. -/
  yielded : s.yielded <+: t.deliveries
  texts : t.texts.flatten = t.contents.flatten ++ t.streamed.getD []
  /-- The last event, and no other, tells how the turn ended. -/
  terminal : ∀ event, t.outcome = some event → event.isTerminal = true
  ended : s.point = .ending ∨ s.point = .finished →
    s.yielded = t.deliveries ∧ t.outcome.isSome = true
  usage : ∀ usage, .done usage ∈ s.yielded →
    usage = ⟨t.usage.inputTokens, t.usage.outputTokens, 0⟩
  /-- When the turn has ended or was aborted, the caller gets to its last event by asking. -/
  mayEnd : t.outcome.isSome = true → s.MayEnd
  /-- The generator returns when `sendAndWait` has settled, and not before. -/
  waits : s.point = .finished → s.settled = true
  finishes : s.settled = true → ∃ more,
    (∀ event ∈ more, event = .pull ∨ event = .resume ∨ event = .finish) ∧
      (run step s more).point = .finished

theorem settled_of_asking (more : List StreamStep)
    (hmore : ∀ event ∈ more, event = .pull ∨ event = .resume) :
    (run step s more).settled = s.settled := by
  induction more generalizing s with
  | nil => rfl
  | cons event more ih =>
    rw [run, List.foldl_cons]
    rw [ih fun other hother ↦ hmore other (List.mem_cons_of_mem event hother)]
    rcases hmore event List.mem_cons_self with rfl | rfl
    · simp only [step]
      split
      · split
        · rfl
        · unfold next
          split <;> rfl
      · rfl
    · simp only [step]
      split <;> rfl

theorem finishes_of_settled (h : s.Tracks t) (hsettled : s.settled = true) :
    ∃ more, (∀ event ∈ more, event = .pull ∨ event = .resume ∨ event = .finish) ∧
      (run step s more).point = .finished := by
  have houtcome : t.outcome.isSome = true := h.done.symm.trans (h.steady.settled hsettled)
  obtain ⟨more, hmore, hended⟩ := mayEnd_of_outcome h houtcome
  have hsettled' := (settled_of_asking more hmore).trans hsettled
  refine ⟨more ++ [.finish], ?_, ?_⟩
  · intro event hevent
    rw [List.mem_append, List.mem_singleton] at hevent
    rcases hevent with hevent | rfl
    · rcases hmore event hevent with rfl | rfl
      · exact Or.inl rfl
      · exact Or.inr (Or.inl rfl)
    · exact Or.inr (Or.inr rfl)
  · rw [run, List.foldl_append, List.foldl_cons, List.foldl_nil]
    rcases hended with hpoint | hpoint
    · simp [step, hpoint, hsettled']
    · simp [step, hpoint]

theorem isOpen_run {events : List StreamStep}
    (hunmixed : Disciplined Turn.step Turn.IsUnmixed {} events) :
    (run Turn.step {} events).IsOpen := by
  have hstep (t : Turn) (event : StreamStep) (h : t.IsOpen) (hevent : t.IsUnmixed event) :
      (t.step event).IsOpen := Turn.isOpen_step h event hevent
  have hinitial : Turn.IsOpen {} := ⟨rfl, fun _ ↦ rfl⟩
  exact run_invariant hstep hinitial events hunmixed

theorem isFull_run {events : List StreamStep}
    (hfollows : Disciplined Turn.step Turn.FollowsSdk {} events) :
    (run Turn.step {} events).IsFull := by
  have hstep (t : Turn) (event : StreamStep) (h : t.IsFull) (hevent : t.FollowsSdk event) :
      (t.step event).IsFull := Turn.isFull_step h event hevent
  have hinitial : Turn.IsFull {} := rfl
  exact run_invariant hstep hinitial events hfollows

theorem tellsUsage_run (events : List StreamStep) : (run Turn.step {} events).TellsUsage := by
  have hstep (t : Turn) (event : StreamStep) (h : t.TellsUsage) : (t.step event).TellsUsage :=
    Turn.tellsUsage_step h event
  have hinitial : Turn.TellsUsage {} := by
    intro usage husage
    cases husage
  exact run_preserves hstep hinitial events

/-- A session that streams no text before a message it sends whole is delivered as one turn. -/
theorem deliversOneTurn (events : List StreamStep)
    (hfollows : Disciplined Turn.step Turn.FollowsSdk {} events)
    (hunmixed : Disciplined Turn.step Turn.IsUnmixed {} events) :
    DeliversOneTurn (run step {} events) (run Turn.step {} events) := by
  have htracks := tracks_run tracks_initial events
  have hopen := (isOpen_run hunmixed).latched
  constructor
  · exact isPrefix_yielded htracks hopen
  · exact isFull_run hfollows
  · exact htracks.terminal
  · exact yielded_of_ended htracks hopen
  · intro usage hmem
    have hdelivered := (isPrefix_yielded htracks hopen).subset hmem
    simp only [Turn.deliveries, List.mem_append, List.mem_map, Option.mem_toList] at hdelivered
    rcases hdelivered with ⟨text, -, htext⟩ | houtcome
    · cases htext
    · exact tellsUsage_run events usage houtcome
  · exact mayEnd_of_outcome htracks
  · exact htracks.steady.finished
  · exact finishes_of_settled htracks

/-- A message that is streamed, one more delta of it after a tool, and the end of the call. -/
theorem deliversOneTurn_streamed :
    DeliversOneTurn
      (run step {} [.start, .delta [1], .resume, .tool, .delta [2], .message (.text [1, 2]),
        .settle none])
      (run Turn.step {} [.start, .delta [1], .resume, .tool, .delta [2], .message (.text [1, 2]),
        .settle none]) :=
  deliversOneTurn _ (by simp [Turn.FollowsSdk, Turn.step, Turn.isGoing, Turn.sendDelta,
    extractMessageText]) (by simp [Turn.IsUnmixed, Turn.step, Turn.isGoing, Turn.sendDelta,
    extractMessageText])

/-- The tokens read from the cache are in no `done` event, and an abort does not let the generator
return. -/
theorem not_tells_all_counters :
    ¬∀ events, Disciplined Turn.step Turn.FollowsSdk {} events →
      (∀ usage, .done usage ∈ (run step {} events).yielded →
        usage.counters = (run Turn.step {} events).usage) ∧
      (.abort ∈ events → ∃ more, (∀ error, .settle error ∉ more) ∧
        (run step {} (events ++ more)).point = .finished) := by
  intro hall
  have hfollows : Disciplined Turn.step Turn.FollowsSdk {}
      [.start, .usage { cacheReadTokens := some 3 }, .settle none, .resume] := by
    simp [Turn.FollowsSdk]
  have hcounters := (hall _ hfollows).1 ⟨0, 0, 0⟩ (by decide)
  revert hcounters
  decide

/-! ## What the wrapper collects -/

theorem receive_texts (texts : List Text) (result : ChatResult) :
    (texts.map StreamChatEvent.text).foldl ChatResult.receive result =
      { result with textAcc := texts.foldl BoundedStringAccumulator.append result.textAcc } := by
  induction texts generalizing result with
  | nil => rfl
  | cons text texts ih =>
    have hreceive : result.receive (.text text) =
        { result with textAcc := result.textAcc.append text } := by
      by_cases hnil : text = []
      · simp [ChatResult.receive, hnil, BoundedStringAccumulator.append]
      · simp [ChatResult.receive, hnil]
    rw [List.map_cons, List.foldl_cons, hreceive, ih]
    rfl

/-- Of a turn that has ended the wrapper returns the end of what the session said, and the tokens
or the error of the turn. -/
theorem chatViaCopilotSdk_collects (events : List StreamStep)
    (hfollows : Disciplined Turn.step Turn.FollowsSdk {} events)
    (hunmixed : Disciplined Turn.step Turn.IsUnmixed {} events)
    (hfinished : (run step {} events).point = .finished) :
    let turn := run Turn.step {} events
    let result := chatViaCopilotSdk (run step {} events).yielded
    result.textAcc.text =
        (turn.contents.flatten ++ turn.streamed.getD []).rtake MAX_CHAT_STREAM_BYTES ∧
      (∀ error, result.error = some error ↔ turn.outcome = some (.error error)) ∧
      (result.error = none → result.usage =
        { inputTokens := turn.usage.inputTokens, outputTokens := turn.usage.outputTokens }) := by
  intro turn result
  have htracks := tracks_run tracks_initial events
  obtain ⟨hyielded, hsome⟩ :=
    yielded_of_ended htracks (isOpen_run hunmixed).latched (Or.inr hfinished)
  obtain ⟨outcome, houtcome⟩ := Option.isSome_iff_exists.mp hsome
  have hresult : result = ChatResult.receive
      { textAcc := turn.texts.foldl BoundedStringAccumulator.append {} } outcome := by
    change chatViaCopilotSdk _ = _
    rw [hyielded, Turn.deliveries, houtcome, chatViaCopilotSdk, List.foldl_append, receive_texts]
    rfl
  have htext : (turn.texts.foldl BoundedStringAccumulator.append {}).text =
      (turn.contents.flatten ++ turn.streamed.getD []).rtake MAX_CHAT_STREAM_BYTES := by
    rw [Chats.BoundedString.text_of_appends]
    exact congrArg (List.rtake · _) (isFull_run hfollows)
  rw [hresult]
  cases outcome with
  | text text => cases htracks.terminal _ houtcome
  | done usage =>
    have husage := tellsUsage_run events usage houtcome
    refine ⟨htext, fun error ↦ ?_, fun _ ↦ ?_⟩
    · simp [ChatResult.receive, turn, houtcome]
    · rw [husage]
      rfl
  | error error =>
    refine ⟨htext, fun other ↦ ?_, fun hnone ↦ ?_⟩
    · simp [ChatResult.receive, turn, houtcome]
    · cases hnone

theorem chatViaCopilotSdk_collects_streamed :
    let events : List StreamStep :=
      [.start, .delta [1], .resume, .pull, .settle none, .resume, .pull, .finish]
    (chatViaCopilotSdk (run step {} events).yielded).textAcc.text =
      [1].rtake MAX_CHAT_STREAM_BYTES :=
  (chatViaCopilotSdk_collects _ (by simp [Turn.FollowsSdk]) (by simp [Turn.IsUnmixed])
    (by decide)).1

end CopilotStream

end Flockctl.Copilot
