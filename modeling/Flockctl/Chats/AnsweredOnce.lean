import Flockctl.Chats.Parking
import Flockctl.RateLimits.ParkedRows

/-!
# Parked turns are answered once

A wake-up starts its session alone, repeats a message no turn was completed after, runs for no
parking that was cancelled, and a parked chat has a timer or a wake-up in flight, exactly in the
runs in which no cancel meets a parked chat without a wake-up in flight, no cancelled one goes on,
none starts beside a running session or after a completed turn, and none throws where nothing else
would wake the chat.
-/

namespace Flockctl.Chats

open Collections RateLimits Sessions Transition

/-- No wake-up started its session beside a running one, repeated an answered message or ran for a
cancelled parking, and every parked chat has a timer or a wake-up in flight. -/
structure AnsweredOnce (s : ParkingDaemon) : Prop where
  alone : ∀ replay ∈ s.replays, replay.alone = true
  unanswered : ∀ replay ∈ s.replays, replay.answered = false
  notCancelled : ∀ wakeup ∈ s.wakeups, wakeup.cancelled = false
  leaves : ∀ chat, s.limits.isParked (.chat chat) = true →
    s.limits.timers.has (.chat chat) = true ∨ s.limits.inflightWakeups.has (.chat chat) = true

namespace ParkingDaemon

variable (s : ParkingDaemon)

/-- A wake-up of the chat that ended in the given phase would leave the chat parked for good. -/
def strands (chat : ChatId) (phase : WakeupPhase) : Bool :=
  s.limits.inflightWakeups.get (.chat chat) == some phase && s.limits.isParked (.chat chat) &&
    !s.limits.timers.has (.chat chat)

/-- The chat is not parked, or its wake-up is in flight. -/
def cancelLeaves (chat : ChatId) : Bool :=
  !s.limits.isParked (.chat chat) || s.limits.inflightWakeups.has (.chat chat)

/-- A wake-up that goes on was not cancelled, and one that throws leaves a timer. -/
def resumesUncancelled (chat : ChatId) (id : TurnId) (place : ℕ) (throws : Bool) : Bool :=
  if !s.wakes chat || s.userMessages chat == [] then true
  else if throws then !s.strands chat .loading
  else if s.isLastUser chat place && !s.turns.turns.has id then
    decide (.chat chat ∉ s.limits.cancelled)
  else true

/-- A resumed session starts while no session of its chat is running, before a turn is completed
after the message it repeats. -/
def startsAlone (id : TurnId) (throws : Bool) : Bool :=
  match s.turns.turns.get id with
  | some ⟨chat, .resume, .setup, _⟩ =>
    if throws then !s.strands chat .resumed else s.isAlone chat && !s.isAnswered id chat
  | _ => true

def endsAwake (id : TurnId) : Bool :=
  match s.turns.turns.get id with
  | some ⟨chat, .resume, .settled, _⟩ => !s.strands chat .resumed
  | _ => true

def keepsAnsweredOnce : ParkingEvent → Bool
  | .cancel chat => s.cancelLeaves chat
  | .beginResume chat id place throws => s.resumesUncancelled chat id place throws
  | .startResume id throws => s.startsAlone id throws
  | .endResume id .throws _ => s.endsAwake id
  | .endResume _ _ _ | .advance _ | .create _ | .send _ _ _ | .setupThrows _ | .register _
  | .settle _ | .finish _ _ | .unregister _ | .fire _ | .restart => true

end ParkingDaemon

/-- Every parked row has a time to resume at, and a timer or a resume handler in flight. -/
structure Armed (l : RateLimitScheduler) : Prop where
  timed : ∀ ref row, l.rows.get ref = some row → row.status = .rateLimited →
    row.resumeAt.isSome = true
  armed : ∀ ref, l.isParked ref = true →
    l.timers.has ref = true ∨ l.inflightWakeups.has ref = true

namespace Armed

variable {l next : RateLimitScheduler} {ref : AgentRef}

/-- An operation on one row leaves the others armed. -/
theorem congr_but (h : Armed l) (ref : AgentRef)
    (hrows : ∀ other ≠ ref, next.rows.get other = l.rows.get other)
    (htimers : ∀ other ≠ ref, next.timers.has other = l.timers.has other)
    (hinflight : ∀ other ≠ ref, next.inflightWakeups.has other = l.inflightWakeups.has other)
    (hself : ∀ row, next.rows.get ref = some row → row.status = .rateLimited →
      row.resumeAt.isSome = true ∧
        (next.timers.has ref = true ∨ next.inflightWakeups.has ref = true)) : Armed next where
  timed other row hrow hstatus := by
    by_cases hother : other = ref
    · rw [hother] at hrow
      exact (hself row hrow hstatus).1
    · rw [hrows other hother] at hrow
      exact h.timed other row hrow hstatus
  armed other hparked := by
    obtain ⟨row, hrow, hstatus⟩ := (RateLimitScheduler.isParked_eq_true_iff other).mp hparked
    by_cases hother : other = ref
    · rw [hother] at hrow ⊢
      exact (hself row hrow hstatus).2
    · rw [hrows other hother] at hrow
      rw [htimers other hother, hinflight other hother]
      exact h.armed other ((RateLimitScheduler.isParked_eq_true_iff other).mpr ⟨row, hrow, hstatus⟩)

theorem park (h : Armed l) (ref : AgentRef) (resumeAtMs : ℤ) : Armed (l.park ref resumeAtMs) := by
  refine h.congr_but ref ?_ ?_ ?_ ?_
  · intro other hother
    exact (JsMap.get_modify _ _ _ _).trans (if_neg hother)
  · intro other hother
    exact RateLimitScheduler.has_set_of_ne hother
  · exact fun _ _ ↦ rfl
  · intro row hrow _
    refine ⟨?_, Or.inl (RateLimitScheduler.has_park ref resumeAtMs)⟩
    change JsMap.get (l.rows.modify ref _) ref = some row at hrow
    rw [JsMap.get_modify, if_pos rfl] at hrow
    obtain ⟨-, -, rfl⟩ := Option.map_eq_some_iff.mp hrow
    rfl

/-- A cancel of a row that is not parked, or has a handler in flight. -/
theorem cancel (h : Armed l) (ref : AgentRef)
    (hself : l.isParked ref = true → l.inflightWakeups.has ref = true) :
    Armed (l.cancel ref) := by
  refine h.congr_but ref (fun _ _ ↦ rfl) ?_ (fun _ _ ↦ rfl) ?_
  · intro other hother
    exact RateLimitScheduler.has_delete_of_ne hother
  · intro row hrow hstatus
    refine ⟨h.timed ref row hrow hstatus, Or.inr (hself ?_)⟩
    exact (RateLimitScheduler.isParked_eq_true_iff ref).mpr ⟨row, hrow, hstatus⟩

theorem fire (h : Armed l) (chat : ChatId) : Armed (l.fire (.chat chat) false) := by
  unfold RateLimitScheduler.fire
  cases l.timers.get (.chat chat) with
  | none => exact h
  | some timer =>
    dsimp only
    split
    · exact h
    · split
      · rename_i hflight
        refine h.congr_but (.chat chat) (fun _ _ ↦ rfl) ?_ (fun _ _ ↦ rfl) ?_
        · intro other hother
          exact RateLimitScheduler.has_delete_of_ne hother
        · intro row hrow hstatus
          exact ⟨h.timed _ row hrow hstatus, Or.inr hflight⟩
      · refine h.congr_but (.chat chat) (fun _ _ ↦ rfl) ?_ ?_ ?_
        · intro other hother
          exact RateLimitScheduler.has_delete_of_ne hother
        · intro other hother
          exact RateLimitScheduler.has_set_of_ne hother
        · intro row hrow hstatus
          refine ⟨h.timed _ row hrow hstatus, Or.inr ?_⟩
          simp [JsMap.has]

/-- A handler ends and its row is not parked, or has a timer. -/
theorem endHandler (h : Armed l) (ref : AgentRef)
    (hself : l.isParked ref = true → l.timers.has ref = true) :
    Armed { l with inflightWakeups := l.inflightWakeups.delete ref } := by
  refine h.congr_but ref (fun _ _ ↦ rfl) (fun _ _ ↦ rfl) ?_ ?_
  · intro other hother
    exact RateLimitScheduler.has_delete_of_ne hother
  · intro row hrow hstatus
    refine ⟨h.timed ref row hrow hstatus, Or.inl (hself ?_)⟩
    exact (RateLimitScheduler.isParked_eq_true_iff ref).mpr ⟨row, hrow, hstatus⟩

/-- A row gets another status, whatever happens to its handler. -/
theorem unpark (h : Armed l) (ref : AgentRef) {rows : JsMap AgentRef ParkableRow}
    {inflight : JsMap AgentRef WakeupPhase}
    (hrows : ∀ other ≠ ref, rows.get other = l.rows.get other)
    (hinflight : ∀ other ≠ ref, inflight.has other = l.inflightWakeups.has other)
    (hself : ∀ row, rows.get ref = some row → row.status ≠ .rateLimited) :
    Armed { l with rows := rows, inflightWakeups := inflight } :=
  h.congr_but ref hrows (fun _ _ ↦ rfl) hinflight
    fun row hrow hstatus ↦ absurd hstatus (hself row hrow)

theorem beginResume (h : Armed l) (ref : AgentRef) (outcome : ChatResume)
    (hself : outcome = .throws → l.inflightWakeups.get ref = some .loading →
      l.isParked ref = true → l.timers.has ref = true) : Armed (l.beginResume ref outcome) := by
  unfold RateLimitScheduler.beginResume
  split
  · rename_i hphase
    have hdeleted (other : AgentRef) (hother : other ≠ ref) :
        (l.inflightWakeups.delete ref).has other = l.inflightWakeups.has other :=
      RateLimitScheduler.has_delete_of_ne hother
    cases hrow : l.rows.get ref with
    | none =>
      apply h.endHandler ref
      intro hparked
      simp [RateLimitScheduler.isParked, hrow] at hparked
    | some row =>
      dsimp only
      split
      · rename_i hstatus
        cases outcome with
        | noUserMessage =>
          refine h.unpark ref (fun other hother ↦ JsMap.get_set_of_ne _ _ hother) hdeleted ?_
          intro stored hstored
          rw [JsMap.get_set_self] at hstored
          cases hstored
          exact fun hsame ↦ by cases hsame
        | runs =>
          refine h.unpark ref (fun other hother ↦ JsMap.get_set_of_ne _ _ hother)
            (fun other hother ↦ RateLimitScheduler.has_set_of_ne hother) ?_
          intro stored hstored
          rw [JsMap.get_set_self] at hstored
          cases hstored
          exact fun hsame ↦ by cases hsame
        | throws =>
          apply h.endHandler ref
          exact hself rfl hphase
      · rename_i hstatus
        apply h.endHandler ref
        intro hparked
        obtain ⟨stored, hstored, hlimited⟩ :=
          (RateLimitScheduler.isParked_eq_true_iff ref).mp hparked
        rw [hrow] at hstored
        cases hstored
        exact absurd hlimited hstatus
  · exact h

theorem endResume (h : Armed l) (ref : AgentRef) (outcome : ChatTurn)
    (hself : outcome = .throws → l.inflightWakeups.get ref = some .resumed →
      l.isParked ref = true → l.timers.has ref = true) : Armed (l.endResume ref outcome) := by
  unfold RateLimitScheduler.endResume
  split
  · rename_i hphase
    cases outcome with
    | idle =>
      refine h.unpark ref ?_ (fun other hother ↦ RateLimitScheduler.has_delete_of_ne hother) ?_
      · intro other hother
        exact (JsMap.get_modify _ _ _ _).trans (if_neg hother)
      · intro row hrow
        rw [JsMap.get_modify, if_pos rfl] at hrow
        obtain ⟨-, -, rfl⟩ := Option.map_eq_some_iff.mp hrow
        exact nofun
    | limited resumeAtMs =>
      have hpark : Armed (l.park ref resumeAtMs) := h.park ref resumeAtMs
      refine hpark.endHandler ref fun _ ↦ ?_
      exact RateLimitScheduler.has_park ref resumeAtMs
    | throws => exact h.endHandler ref (hself rfl hphase)
  · exact h

/-- Arming timers from the rows of a list leaves everything but the timers alone, and arms one for
every parked row of the list with a time. -/
theorem recover (entries : List (AgentRef × ParkableRow)) (l : RateLimitScheduler) :
    ∃ timers, entries.foldl RateLimitScheduler.recoverRow l = { l with timers := timers } ∧
      (∀ ref, l.timers.has ref = true → timers.has ref = true) ∧
      ∀ entry ∈ entries, entry.2.status = .rateLimited → entry.2.resumeAt.isSome = true →
        timers.has entry.1 = true := by
  induction entries generalizing l with
  | nil => exact ⟨l.timers, rfl, fun _ ↦ id, fun entry hentry ↦ by cases hentry⟩
  | cons entry entries ih =>
    have hone : ∃ timers, l.recoverRow entry = { l with timers := timers } ∧
        (∀ ref, l.timers.has ref = true → timers.has ref = true) ∧
        (entry.2.status = .rateLimited → entry.2.resumeAt.isSome = true →
          timers.has entry.1 = true) := by
      obtain ⟨ref, status, resumeAt⟩ := entry
      by_cases hselected : status = .rateLimited ∧ resumeAt.isSome = true
      · obtain ⟨rfl, hsome⟩ := hselected
        obtain ⟨time, rfl⟩ := Option.isSome_iff_exists.mp hsome
        refine ⟨(l.schedule ref time).timers, rfl, ?_, ?_⟩
        · intro other hother
          rw [JsMap.has, RateLimitScheduler.get_schedule]
          split
          · rfl
          · exact hother
        · intro _ _
          rw [JsMap.has, RateLimitScheduler.get_schedule, if_pos rfl]
          rfl
      · refine ⟨l.timers, ?_, fun _ ↦ id, fun hstatus hsome ↦ absurd ⟨hstatus, hsome⟩ hselected⟩
        cases status <;> cases resumeAt <;> simp [RateLimitScheduler.recoverRow] at hselected ⊢
    obtain ⟨first, hfirst, hkept, harmed⟩ := hone
    obtain ⟨timers, hfold, hlater, hall⟩ := ih { l with timers := first }
    refine ⟨timers, ?_, fun ref href ↦ hlater ref (hkept ref href), ?_⟩
    · rw [List.foldl_cons, hfirst, hfold]
    · intro other hother hstatus hsome
      rcases List.mem_cons.mp hother with rfl | hrest
      · exact hlater _ (harmed hstatus hsome)
      · exact hall other hrest hstatus hsome

theorem restart (h : Armed l) : Armed l.restart := by
  unfold RateLimitScheduler.restart RateLimitScheduler.recoverFromDatabase
  obtain ⟨timers, hfold, -, harmed⟩ := recover l.resetStaleRows.rows.entries l.resetStaleRows
  rw [hfold]
  have hparked (ref : AgentRef) (row : ParkableRow)
      (hrow : l.resetStaleRows.rows.get ref = some row) (hstatus : row.status = .rateLimited) :
      l.rows.get ref = some row := by
    change JsMap.get (l.rows.mapWithKey _) ref = some row at hrow
    rw [JsMap.get_mapWithKey] at hrow
    obtain ⟨stored, hstored, rfl⟩ := Option.map_eq_some_iff.mp hrow
    split at hstatus
    · cases ref <;> cases hstatus
    · rename_i hrunning
      rw [if_neg hrunning]
      exact hstored
  refine ⟨?_, ?_⟩
  · intro ref row hrow hstatus
    exact h.timed ref row (hparked ref row hrow hstatus) hstatus
  · intro ref hstill
    obtain ⟨row, hrow, hstatus⟩ := (RateLimitScheduler.isParked_eq_true_iff ref).mp hstill
    have htimed := h.timed ref row (hparked ref row hrow hstatus) hstatus
    exact Or.inl (harmed (ref, row) ((JsMap.mem_entries_iff _ _ _).mpr hrow) hstatus htimed)

theorem writeIdle (h : Armed l) (ref : AgentRef) : Armed (l.write ref .idle true) := by
  refine h.unpark ref (fun other hother ↦ JsMap.get_set_of_ne _ _ hother) (fun _ _ ↦ rfl) ?_
  intro row hrow
  rw [JsMap.get_set_self] at hrow
  cases hrow
  exact nofun

end Armed

namespace ParkingDaemon

/-- The invariant: no replay or wake-up has gone wrong, and the parked rows are armed. -/
structure Orderly (s : ParkingDaemon) : Prop where
  alone : ∀ replay ∈ s.replays, replay.alone = true
  unanswered : ∀ replay ∈ s.replays, replay.answered = false
  notCancelled : ∀ wakeup ∈ s.wakeups, wakeup.cancelled = false
  awake : Armed s.limits

variable {s : ParkingDaemon}

theorem not_strands {chat : ChatId} {phase : WakeupPhase}
    (hallowed : s.strands chat phase = false)
    (hphase : s.limits.inflightWakeups.get (.chat chat) = some phase)
    (hparked : s.limits.isParked (.chat chat) = true) :
    s.limits.timers.has (.chat chat) = true := by
  simpa [strands, hphase, hparked] using hallowed

namespace Orderly

theorem answeredOnce (h : Orderly s) : AnsweredOnce s :=
  ⟨h.alone, h.unanswered, h.notCancelled, fun chat ↦ h.awake.armed (.chat chat)⟩

/-- The turns and the messages may change in any way. -/
theorem withLimits (h : Orderly s) {limits : RateLimitScheduler} (hlimits : Armed limits)
    (turns : ChatDaemon) (messages : JsMap ChatId (List UserMessage)) (repeats : JsMap TurnId ℕ) :
    Orderly { s with
      limits := limits, turns := turns, messages := messages, repeats := repeats } :=
  ⟨h.alone, h.unanswered, h.notCancelled, hlimits⟩

theorem create (h : Orderly s) (chat : ChatId) : Orderly (s.create chat) := by
  unfold ParkingDaemon.create
  split
  · exact h
  · exact h.withLimits (h.awake.writeIdle (.chat chat)) _ _ _

theorem send (h : Orderly s) (id : TurnId) (chat : ChatId) (streamed : Bool) :
    Orderly (s.send id chat streamed) := by
  unfold ParkingDaemon.send
  split
  · exact h.withLimits h.awake _ _ _
  · exact h

theorem finish (h : Orderly s) (id : TurnId) (outcome : TurnOutcome) :
    Orderly (s.finish id outcome) := by
  unfold ParkingDaemon.finish
  split
  · exact h
  · rename_i chat endpoint aborted _ _
    cases outcome with
    | completed => exact h.withLimits h.awake _ _ _
    | limited resumeAtMs => exact h.withLimits (h.awake.park (.chat chat) resumeAtMs) _ _ _
    | failed => exact h
  · exact h

theorem messageTurn (h : Orderly s) (id : TurnId) (event : ChatDaemon → TurnId → ChatDaemon) :
    Orderly (s.messageTurn id event) := by
  unfold ParkingDaemon.messageTurn
  split
  · exact h
  · exact h.withLimits h.awake _ _ _

theorem cancel (h : Orderly s) (chat : ChatId) (hallowed : s.cancelLeaves chat = true) :
    Orderly (s.cancel chat) := by
  refine h.withLimits (h.awake.cancel (.chat chat) ?_) _ _ _
  intro hparked
  simpa [cancelLeaves, hparked] using hallowed

theorem beginResume (h : Orderly s) (chat : ChatId) (id : TurnId) (place : ℕ) (throws : Bool)
    (hallowed : s.resumesUncancelled chat id place throws = true) :
    Orderly (s.beginResume chat id place throws) := by
  unfold ParkingDaemon.beginResume
  unfold resumesUncancelled at hallowed
  by_cases hwakes : s.wakes chat = true
  · rw [hwakes] at hallowed ⊢
    by_cases hnone : s.userMessages chat = []
    · simp only [Bool.not_true, Bool.false_eq_true, if_false, hnone, if_true]
      exact h.withLimits (h.awake.beginResume _ .noUserMessage fun hsame ↦ by cases hsame) _ _ _
    · simp only [Bool.not_true, Bool.false_eq_true, if_false, hnone]
      simp only [Bool.not_true, Bool.false_or, beq_iff_eq, hnone, if_false] at hallowed
      split
      · rename_i hthrows
        rw [if_pos hthrows, Bool.not_eq_true'] at hallowed
        refine h.withLimits (h.awake.beginResume _ .throws fun _ ↦ ?_) _ _ _
        exact not_strands hallowed
      · rename_i hthrows
        rw [if_neg hthrows] at hallowed
        split
        · rename_i hlast
          rw [if_pos hlast, decide_eq_true_iff] at hallowed
          refine ⟨h.alone, h.unanswered, ?_, h.awake.beginResume _ .runs fun hsame ↦ by cases hsame⟩
          intro wakeup hmem
          rcases List.mem_cons.mp hmem with rfl | hold
          · exact decide_eq_false hallowed
          · exact h.notCancelled wakeup hold
        · exact h
  · rw [Bool.not_eq_true] at hwakes
    rw [hwakes]
    exact h.withLimits (h.awake.beginResume _ .runs fun hsame ↦ by cases hsame) _ _ _

theorem startResume (h : Orderly s) (id : TurnId) (throws : Bool)
    (hallowed : s.startsAlone id throws = true) : Orderly (s.startResume id throws) := by
  unfold ParkingDaemon.startResume
  unfold startsAlone at hallowed
  split
  · rename_i chat aborted hturn
    rw [hturn] at hallowed
    split
    · rename_i hthrows
      simp only [hthrows, if_true, Bool.not_eq_true'] at hallowed
      refine h.withLimits (h.awake.endResume _ .throws fun _ ↦ ?_) _ _ _
      exact not_strands hallowed
    · rename_i hthrows
      simp only [hthrows, Bool.false_eq_true, if_false, Bool.and_eq_true, Bool.not_eq_true']
        at hallowed
      refine ⟨?_, ?_, h.notCancelled, h.awake⟩
      · intro replay hmem
        rcases List.mem_cons.mp hmem with rfl | hold
        · exact hallowed.1
        · exact h.alone replay hold
      · intro replay hmem
        rcases List.mem_cons.mp hmem with rfl | hold
        · exact hallowed.2
        · exact h.unanswered replay hold
  · exact h

theorem endResume (h : Orderly s) (id : TurnId) (outcome : ChatTurn) (completed : Bool)
    (hallowed : s.keepsAnsweredOnce (.endResume id outcome completed) = true) :
    Orderly (s.endResume id outcome completed) := by
  unfold ParkingDaemon.endResume
  split
  · rename_i chat aborted hturn
    have hlimits : Armed (s.limits.endResume (.chat chat) outcome) := by
      apply h.awake.endResume
      rintro rfl
      change s.endsAwake id = true at hallowed
      simp only [endsAwake, hturn, Bool.not_eq_true'] at hallowed
      exact not_strands hallowed
    dsimp only
    split
    · exact h.withLimits hlimits _ _ _
    · exact h.withLimits hlimits _ _ _
  · exact h

theorem restart (h : Orderly s) : Orderly s.restart :=
  h.withLimits h.awake.restart _ _ _

theorem step (h : Orderly s) (event : ParkingEvent)
    (hallowed : s.keepsAnsweredOnce event = true) : Orderly (s.step event) := by
  cases event with
  | advance elapsed =>
    have hlimits : Armed (s.limits.step (.advance elapsed)) := ⟨h.awake.timed, h.awake.armed⟩
    exact h.withLimits hlimits _ _ _
  | create chat => exact h.create chat
  | send id chat streamed => exact h.send id chat streamed
  | setupThrows id => exact h.messageTurn id _
  | register id => exact h.messageTurn id _
  | settle id => exact h.withLimits h.awake _ _ _
  | finish id outcome => exact h.finish id outcome
  | unregister id => exact h.messageTurn id _
  | cancel chat => exact h.cancel chat hallowed
  | fire chat => exact h.withLimits (h.awake.fire chat) _ _ _
  | beginResume chat id place throws => exact h.beginResume chat id place throws hallowed
  | startResume id throws => exact h.startResume id throws hallowed
  | endResume id outcome completed => exact h.endResume id outcome completed hallowed
  | restart => exact h.restart

end Orderly

/-! ## Exactness -/

theorem cancelLeaves_of_answeredOnce {chat : ChatId} (hnext : AnsweredOnce (s.cancel chat)) :
    s.cancelLeaves chat = true := by
  unfold cancelLeaves
  cases hparked : s.limits.isParked (.chat chat) with
  | false => rfl
  | true =>
    have hawake := hnext.leaves chat hparked
    have hdropped : (s.limits.cancel (.chat chat)).timers.has (.chat chat) = false := by
      simp [RateLimitScheduler.cancel, JsMap.has]
    exact hawake.resolve_left (Bool.eq_false_iff.mp hdropped)

/-- A wake-up that ends without changing the row has left a timer, if the chat is awake. -/
theorem not_strands_of_leaves {chat : ChatId} {phase : WakeupPhase} {limits : RateLimitScheduler}
    (hlimits : s.strands chat phase = true → limits =
      { s.limits with inflightWakeups := s.limits.inflightWakeups.delete (.chat chat) })
    (hleaves : limits.isParked (.chat chat) = true →
      limits.timers.has (.chat chat) = true ∨ limits.inflightWakeups.has (.chat chat) = true) :
    s.strands chat phase = false := by
  rw [Bool.eq_false_iff]
  intro hstrands
  rw [hlimits hstrands] at hleaves
  have hboth : (s.limits.inflightWakeups.get (.chat chat) = some phase ∧
      s.limits.isParked (.chat chat) = true) ∧ s.limits.timers.has (.chat chat) = false := by
    simpa [strands] using hstrands
  rcases hleaves hboth.1.2 with htimer | hflight
  · exact Bool.eq_false_iff.mp hboth.2 htimer
  · simp [JsMap.has] at hflight

theorem not_strands_resumed_of_leaves {chat : ChatId}
    (hleaves : (s.limits.endResume (.chat chat) .throws).isParked (.chat chat) = true →
      (s.limits.endResume (.chat chat) .throws).timers.has (.chat chat) = true ∨
        (s.limits.endResume (.chat chat) .throws).inflightWakeups.has (.chat chat) = true) :
    s.strands chat .resumed = false := by
  refine not_strands_of_leaves ?_ hleaves
  intro hstrands
  have hphase : s.limits.inflightWakeups.get (.chat chat) = some .resumed := by
    simp only [strands, Bool.and_eq_true, beq_iff_eq] at hstrands
    exact hstrands.1.1
  rw [RateLimitScheduler.endResume, hphase]

theorem resumesUncancelled_of_answeredOnce {chat : ChatId} {id : TurnId} {place : ℕ} {throws : Bool}
    (hnext : AnsweredOnce (s.beginResume chat id place throws)) :
    s.resumesUncancelled chat id place throws = true := by
  unfold resumesUncancelled
  unfold ParkingDaemon.beginResume at hnext
  by_cases hbails : (!s.wakes chat || s.userMessages chat == []) = true
  · rw [if_pos hbails]
  · rw [if_neg hbails]
    have hwakes : s.wakes chat = true ∧ s.userMessages chat ≠ [] := by
      simpa using hbails
    rw [if_neg (by simp [hwakes.1]), if_neg hwakes.2] at hnext
    split
    · rename_i hthrows
      rw [if_pos hthrows] at hnext
      rw [Bool.not_eq_true']
      refine not_strands_of_leaves ?_ (hnext.leaves chat)
      intro hstrands
      simp only [strands, Bool.and_eq_true, beq_iff_eq,
        RateLimitScheduler.isParked_eq_true_iff] at hstrands
      obtain ⟨⟨hphase, row, hrow, hstatus⟩, -⟩ := hstrands
      simp [RateLimitScheduler.beginResume, hphase, hrow, hstatus]
    · rename_i hthrows
      rw [if_neg hthrows] at hnext
      split
      · rename_i hlast
        rw [if_pos hlast] at hnext
        have hflag := hnext.notCancelled _ List.mem_cons_self
        exact decide_eq_true (of_decide_eq_false hflag)
      · rfl

theorem startsAlone_of_answeredOnce {id : TurnId} {throws : Bool}
    (hnext : AnsweredOnce (s.startResume id throws)) : s.startsAlone id throws = true := by
  unfold startsAlone
  unfold ParkingDaemon.startResume at hnext
  split
  · rename_i chat aborted hturn
    rw [hturn] at hnext
    dsimp only at hnext
    split
    · rename_i hthrows
      rw [if_pos hthrows] at hnext
      rw [Bool.not_eq_true']
      exact not_strands_resumed_of_leaves (hnext.leaves chat)
    · rename_i hthrows
      rw [if_neg hthrows] at hnext
      have halone := hnext.alone _ List.mem_cons_self
      have hanswered := hnext.unanswered _ List.mem_cons_self
      dsimp only at halone hanswered
      rw [halone, hanswered]
      rfl
  · rfl

theorem endsAwake_of_answeredOnce {id : TurnId} {completed : Bool}
    (hnext : AnsweredOnce (s.endResume id .throws completed)) : s.endsAwake id = true := by
  unfold endsAwake
  unfold ParkingDaemon.endResume at hnext
  split
  · rename_i chat aborted hturn
    rw [hturn] at hnext
    have hplain : (completed && ChatTurn.throws == ChatTurn.idle) = false := by
      cases completed <;> rfl
    dsimp only at hnext
    rw [hplain, if_neg nofun] at hnext
    rw [Bool.not_eq_true']
    exact not_strands_resumed_of_leaves (hnext.leaves chat)
  · rfl

/-- A step to a state in which nothing has gone wrong is an allowed one. -/
theorem keepsAnsweredOnce_of_answeredOnce (event : ParkingEvent)
    (hnext : AnsweredOnce (s.step event)) : s.keepsAnsweredOnce event = true := by
  cases event with
  | cancel chat => exact cancelLeaves_of_answeredOnce hnext
  | beginResume chat id place throws => exact resumesUncancelled_of_answeredOnce hnext
  | startResume id throws => exact startsAlone_of_answeredOnce hnext
  | endResume id outcome completed =>
    cases outcome with
    | throws => exact endsAwake_of_answeredOnce hnext
    | idle => rfl
    | limited resumeAtMs => rfl
  | advance elapsed => rfl
  | create chat => rfl
  | send id chat streamed => rfl
  | setupThrows id => rfl
  | register id => rfl
  | settle id => rfl
  | finish id outcome => rfl
  | unregister id => rfl
  | fire chat => rfl
  | restart => rfl

theorem orderly_boot : Orderly {} where
  alone _ hmem := by cases hmem
  unanswered _ hmem := by cases hmem
  notCancelled _ hmem := by cases hmem
  awake := ⟨fun _ _ hrow ↦ (by cases hrow), fun _ hparked ↦ (by cases hparked)⟩

/-- A parked turn is answered at most once, never after a cancel, and by a session that is alone, in
every state of a run, exactly when cancels meet no parked chat that has no wake-up in flight, and
wake-ups go on only uncancelled, start only alone and before an answer, and throw only where a timer
is left. -/
theorem parked_turn_answered_once_iff (events : List ParkingEvent) :
    (∀ before, before <+: events → AnsweredOnce (run step {} before)) ↔
      Disciplined step (fun s event ↦ s.keepsAnsweredOnce event = true) {} events :=
  disciplined_iff_good (fun _ event h hallowed ↦ h.step event hallowed)
    (fun _ h ↦ h.answeredOnce)
    (fun _ event _ hnext ↦ keepsAnsweredOnce_of_answeredOnce event hnext) orderly_boot events

/-- A chat whose turn has hit a limit that ends in a second. -/
def parkedRun : List ParkingEvent :=
  [.create 7, .send 0 7 true, .register 0, .settle 0, .finish 0 (.limited 1000), .unregister 0]

/-- A cancel of the parked chat leaves its status; after a restart its turn is repeated all the
same. The wake-up repeats a message that was sent and answered while the chat was parked, and starts
its session beside one that answers a new message. -/
theorem parked_turn_not_answered_once :
    ¬AnsweredOnce (run step {} (parkedRun ++ [.cancel 7])) ∧
    ¬AnsweredOnce (run step {} (parkedRun ++ [.cancel 7, .restart, .advance 1000, .fire 7,
      .beginResume 7 1 0 false])) ∧
    ¬AnsweredOnce (run step {} (parkedRun ++ [.send 1 7 true, .register 1, .settle 1,
      .finish 1 .completed, .unregister 1, .advance 1000, .fire 7, .beginResume 7 2 1 false,
      .startResume 2 false])) ∧
    ¬AnsweredOnce (run step {} (parkedRun ++ [.send 1 7 true, .register 1, .advance 1000, .fire 7,
      .beginResume 7 2 1 false, .startResume 2 false])) := by
  refine ⟨fun h ↦ ?_, fun h ↦ ?_, fun h ↦ ?_, fun h ↦ ?_⟩
  · have hleaves := h.leaves 7
    revert hleaves
    decide +kernel
  · have hflags := h.notCancelled
    revert hflags
    decide +kernel
  · have hflags := h.unanswered
    revert hflags
    decide +kernel
  · have hflags := h.alone
    revert hflags
    decide +kernel

end ParkingDaemon

end Flockctl.Chats
