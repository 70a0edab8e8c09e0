import Flockctl.RateLimits.Scheduler
import Flockctl.Transition.Run

/-!
# Parked rows wake

A parked row has a timer or a resume handler that will change its status, and no handler is invoked
before the time its row says, as long as the times are at most `MAX_TIMER_MS` ahead, no row is
parked without a time when the daemon boots, and no handler throws before it has changed a parked
row that has no timer.
-/

namespace Flockctl.RateLimits

open Collections Sessions Transition

namespace RateLimitScheduler

variable (s : RateLimitScheduler)

/-- The row is parked. -/
def isParked (ref : AgentRef) : Bool :=
  match s.rows.get ref with
  | none => false
  | some row => row.status == .rateLimited

/-- A resume handler is in flight for the row, and however it goes on without throwing, the row is
not parked any more or has a timer. -/
def HandlerWillChange (ref : AgentRef) : Prop :=
  (s.inflightWakeups.get ref = some .loading ∧ ∀ outcome ≠ .throws,
    (s.beginResume ref outcome).isParked ref = false) ∨
  (s.inflightWakeups.get ref = some .resumed ∧ ∀ outcome ≠ .throws,
    (s.endResume ref outcome).isParked ref = false ∨
      (s.endResume ref outcome).timers.has ref = true)

/-- A parked row that no cancel was issued for is going to wake, and no handler was invoked before
the time its row said. -/
structure Waking (s : RateLimitScheduler) : Prop where
  wakes : ∀ ref, s.isParked ref = true → ref ∉ s.cancelled →
    s.timers.has ref = true ∨ s.HandlerWillChange ref
  never_early : ∀ invocation ∈ s.invocations, ∀ resumeAt, invocation.resumeAt = some resumeAt →
    resumeAt ≤ invocation.time

/-- Nothing would wake the row if its handler ended without changing it. -/
def wouldStrand (ref : AgentRef) (armed : Bool) : Bool :=
  s.isParked ref && !s.cancelled.contains ref && !armed

/-- A time to resume at lies at most `MAX_TIMER_MS` ahead, no row is parked without a time at boot,
and no handler throws where nothing else would wake its row. -/
def keepsWaking : RateLimitEvent → Bool
  | .park _ resumeAtMs | .endResume _ (.limited resumeAtMs) =>
    decide (resumeAtMs - s.now ≤ MAX_TIMER_MS)
  | .restart => s.rows.entries.all fun entry ↦
      entry.2.status != .rateLimited ||
        match entry.2.resumeAt with
        | none => s.cancelled.contains entry.1
        | some resumeAt => decide (resumeAt - s.now ≤ MAX_TIMER_MS)
  | .fire ref true => !s.wouldStrand ref false
  | .beginResume ref .throws | .endResume ref .throws =>
    !s.wouldStrand ref (s.timers.has ref)
  | .advance _ | .cancel _ | .fire _ false | .beginResume _ _ | .endResume _ _ | .write _ _ _
  | .delete _ => true

/-- Every timer fires no earlier than the time it was armed for, which is the time of its row, and
no handler was invoked early. -/
structure Punctual (s : RateLimitScheduler) : Prop where
  due : ∀ ref timer, s.timers.get ref = some timer → timer.resumeAtMs ≤ timer.due
  agrees : ∀ ref timer row resumeAt, s.timers.get ref = some timer → s.rows.get ref = some row →
    row.resumeAt = some resumeAt → resumeAt = timer.resumeAtMs
  early : ∀ invocation ∈ s.invocations, ∀ resumeAt, invocation.resumeAt = some resumeAt →
    resumeAt ≤ invocation.time

/-- Every parked row has a timer or a handler in flight, and the timers are punctual. -/
structure Covered (s : RateLimitScheduler) : Prop extends Punctual s where
  parked : ∀ ref, s.isParked ref = true → ref ∉ s.cancelled →
    s.timers.has ref = true ∨ s.inflightWakeups.has ref = true

/-- Every parked row but one has a timer or a handler in flight, and the timers are punctual. -/
structure CoveredBut (s : RateLimitScheduler) (ref : AgentRef) : Prop extends Punctual s where
  others : ∀ other ≠ ref, s.isParked other = true → other ∉ s.cancelled →
    s.timers.has other = true ∨ s.inflightWakeups.has other = true

section

variable {s}

theorem isParked_eq_true_iff (ref : AgentRef) :
    s.isParked ref = true ↔ ∃ row, s.rows.get ref = some row ∧ row.status = .rateLimited := by
  unfold isParked
  cases s.rows.get ref <;> simp

/-- Parking arms a timer. -/
theorem has_park (ref : AgentRef) (resumeAtMs : ℤ) :
    (s.park ref resumeAtMs).timers.has ref = true := by
  simp [park, schedule, JsMap.has]

/-- A handler in flight changes its row, unless it throws. -/
theorem handlerWillChange (ref : AgentRef) (hflight : s.inflightWakeups.has ref = true) :
    s.HandlerWillChange ref := by
  obtain ⟨phase, hphase⟩ := (s.inflightWakeups.has_eq_true_iff ref).mp hflight
  cases phase with
  | loading =>
    refine Or.inl ⟨hphase, ?_⟩
    intro outcome houtcome
    unfold beginResume
    rw [hphase]
    dsimp only
    cases hrow : s.rows.get ref with
    | none => simp [isParked, hrow]
    | some row =>
      dsimp only
      split
      · cases outcome with
        | noUserMessage => simp [isParked]
        | runs => simp [isParked]
        | throws => exact absurd rfl houtcome
      · rename_i hstatus
        simp [isParked, hrow, hstatus]
  | resumed =>
    refine Or.inr ⟨hphase, ?_⟩
    intro outcome houtcome
    unfold endResume
    rw [hphase]
    cases outcome with
    | idle =>
      left
      cases hrow : s.rows.get ref <;> simp [isParked, JsMap.get_modify, hrow]
    | limited resumeAtMs => exact Or.inr (has_park ref resumeAtMs)
    | throws => exact absurd rfl houtcome

theorem Covered.waking (h : Covered s) : Waking s where
  wakes ref hparked hcancelled :=
    (h.parked ref hparked hcancelled).imp_right fun hflight ↦ handlerWillChange ref hflight
  never_early := h.early

end

/-! ## Timers -/

section

variable {s} {ref : AgentRef} {resumeAtMs : ℤ}

theorem get_schedule (other : AgentRef) :
    (s.schedule ref resumeAtMs).timers.get other =
      if other = ref then
        some ⟨s.now + min (max MIN_DELAY_MS (resumeAtMs - s.now)) MAX_TIMER_MS, resumeAtMs⟩
      else s.timers.get other := JsMap.get_set _ _ _ _

/-- A time that is not too far ahead is not cut. -/
theorem le_due (hlimit : resumeAtMs - s.now ≤ MAX_TIMER_MS) :
    resumeAtMs ≤ s.now + min (max MIN_DELAY_MS (resumeAtMs - s.now)) MAX_TIMER_MS := by
  have hdelay : resumeAtMs - s.now ≤ min (max MIN_DELAY_MS (resumeAtMs - s.now)) MAX_TIMER_MS :=
    le_min (le_max_right _ _) hlimit
  omega

theorem Punctual.dropTimer (h : Punctual s) (ref : AgentRef) :
    Punctual { s with timers := s.timers.delete ref } where
  due other timer htimer := h.due other timer (JsMap.get_delete_eq_some_iff.mp htimer).2
  agrees other timer row resumeAt htimer :=
    h.agrees other timer row resumeAt (JsMap.get_delete_eq_some_iff.mp htimer).2
  early := h.early

/-- The timer a row had before does not count. -/
theorem Punctual.schedule (h : Punctual { s with timers := s.timers.delete ref })
    (hlimit : resumeAtMs - s.now ≤ MAX_TIMER_MS)
    (hrow : ∀ row resumeAt, s.rows.get ref = some row → row.resumeAt = some resumeAt →
      resumeAt = resumeAtMs) :
    Punctual (s.schedule ref resumeAtMs) where
  due other timer htimer := by
    rw [get_schedule] at htimer
    split at htimer
    · cases htimer
      exact le_due hlimit
    · rename_i hother
      exact h.due other timer ((JsMap.get_delete_of_ne _ hother).trans htimer)
  agrees other timer row resumeAt htimer hstored hresume := by
    rw [get_schedule] at htimer
    split at htimer
    · rename_i hother
      cases htimer
      exact hrow row resumeAt (hother ▸ hstored) hresume
    · rename_i hother
      exact h.agrees other timer row resumeAt ((JsMap.get_delete_of_ne _ hother).trans htimer)
        hstored hresume
  early := h.early

/-- Arming timers changes nothing else, drops no timer, and arms one for every parked row with a
time. -/
theorem Punctual.recover (entries : List (AgentRef × ParkableRow)) (h : Punctual s)
    (hrows : ∀ entry ∈ entries, s.rows.get entry.1 = some entry.2)
    (hlimit : ∀ entry ∈ entries, ∀ resumeAt, entry.2.status = .rateLimited →
      entry.2.resumeAt = some resumeAt → resumeAt - s.now ≤ MAX_TIMER_MS) :
    ∃ timers, entries.foldl recoverRow s = { s with timers := timers } ∧
      Punctual { s with timers := timers } ∧
      (∀ ref, s.timers.has ref = true → timers.has ref = true) ∧
      ∀ entry ∈ entries, entry.2.status = .rateLimited → entry.2.resumeAt.isSome = true →
        timers.has entry.1 = true := by
  induction entries generalizing s with
  | nil => exact ⟨s.timers, rfl, h, fun _ ↦ id, fun entry hentry ↦ by cases hentry⟩
  | cons entry entries ih =>
    obtain ⟨ref, status, resumeAt⟩ := entry
    have hstored : s.rows.get ref = some ⟨status, resumeAt⟩ :=
      hrows (ref, ⟨status, resumeAt⟩) List.mem_cons_self
    have hskip (hnot : ¬(status = .rateLimited ∧ resumeAt.isSome = true)) :
        recoverRow s (ref, ⟨status, resumeAt⟩) = s := by
      cases status <;> cases resumeAt <;> simp [recoverRow] at hnot ⊢
    by_cases hselected : status = .rateLimited ∧ resumeAt.isSome = true
    · obtain ⟨rfl, hsome⟩ := hselected
      obtain ⟨time, rfl⟩ := Option.isSome_iff_exists.mp hsome
      have hnext : Punctual (s.schedule ref time) := by
        apply (h.dropTimer ref).schedule (hlimit _ List.mem_cons_self time rfl rfl)
        intro row other hrow hother
        rw [hstored] at hrow
        cases hrow
        exact (Option.some.inj hother).symm
      obtain ⟨timers, hfold, hpunctual, hkept, harmed⟩ := ih hnext
        (fun other hother ↦ hrows other (List.mem_cons_of_mem _ hother))
        (fun other hother ↦ hlimit other (List.mem_cons_of_mem _ hother))
      have hfirst : timers.has ref = true :=
        hkept ref (by rw [JsMap.has, get_schedule, if_pos rfl]; rfl)
      refine ⟨timers, hfold, hpunctual, ?_, ?_⟩
      · intro other hother
        apply hkept other
        rw [JsMap.has, get_schedule]
        split
        · rfl
        · exact hother
      · intro other hother hstatus hresume
        rcases List.mem_cons.mp hother with rfl | hrest
        · exact hfirst
        · exact harmed other hrest hstatus hresume
    · rw [List.foldl_cons, hskip hselected]
      obtain ⟨timers, hfold, hpunctual, hkept, harmed⟩ := ih h
        (fun other hother ↦ hrows other (List.mem_cons_of_mem _ hother))
        (fun other hother ↦ hlimit other (List.mem_cons_of_mem _ hother))
      refine ⟨timers, hfold, hpunctual, hkept, ?_⟩
      intro other hother hstatus hresume
      rcases List.mem_cons.mp hother with rfl | hrest
      · exact absurd ⟨hstatus, hresume⟩ hselected
      · exact harmed other hrest hstatus hresume

end

/-! ## Steps -/

theorem has_delete_of_ne {Value : Type} {map : JsMap AgentRef Value} {ref other : AgentRef}
    (hother : other ≠ ref) : (map.delete ref).has other = map.has other := by
  rw [JsMap.has, JsMap.get_delete_of_ne _ hother]
  rfl

theorem has_set_of_ne {Value : Type} {map : JsMap AgentRef Value} {ref other : AgentRef}
    {value : Value} (hother : other ≠ ref) : (map.set ref value).has other = map.has other := by
  rw [JsMap.has, JsMap.get_set_of_ne _ _ hother]
  rfl

theorem not_wouldStrand {s : RateLimitScheduler} {ref : AgentRef} {armed : Bool}
    (hsafe : s.wouldStrand ref armed = false) (hparked : s.isParked ref = true)
    (hcancelled : ref ∉ s.cancelled) : armed = true := by
  simpa [wouldStrand, hparked, hcancelled] using hsafe

namespace CoveredBut

variable {s} {ref : AgentRef}

/-- The row is covered as well when it is not parked, had a cancel, or has a timer or a handler. -/
theorem covered (h : CoveredBut s ref)
    (hself : s.isParked ref = true → ref ∉ s.cancelled →
      s.timers.has ref = true ∨ s.inflightWakeups.has ref = true) : Covered s := by
  refine ⟨h.toPunctual, ?_⟩
  intro other hparked hcancelled
  by_cases hother : other = ref
  · rw [hother] at hparked hcancelled ⊢
    exact hself hparked hcancelled
  · exact h.others other hother hparked hcancelled

/-- The handler of the row does not count. -/
theorem withInflight (h : CoveredBut s ref) {inflight : JsMap AgentRef WakeupPhase}
    (hinflight : ∀ other ≠ ref, inflight.has other = s.inflightWakeups.has other) :
    CoveredBut { s with inflightWakeups := inflight } ref := by
  refine ⟨⟨h.due, h.agrees, h.early⟩, ?_⟩
  intro other hother hparked hcancelled
  exact (h.others other hother hparked hcancelled).imp_right (hinflight other hother).trans

theorem dropTimer (h : CoveredBut s ref) :
    CoveredBut { s with timers := s.timers.delete ref } ref := by
  refine ⟨h.toPunctual.dropTimer ref, ?_⟩
  intro other hother hparked hcancelled
  exact (h.others other hother hparked hcancelled).imp_left (has_delete_of_ne hother).trans

/-- A due timer fires and its handler is invoked. -/
theorem invoke (h : CoveredBut s ref) {timer : Timer} (htimer : s.timers.get ref = some timer)
    (hdue : timer.due ≤ s.now) :
    CoveredBut
      { s with
        timers := s.timers.delete ref
        invocations := ⟨ref, s.now, (s.rows.get ref).bind ParkableRow.resumeAt⟩ ::
          s.invocations } ref := by
  have hdropped := h.dropTimer
  refine ⟨⟨hdropped.due, hdropped.agrees, ?_⟩, hdropped.others⟩
  intro invocation hmem resumeAt hresume
  rcases List.mem_cons.mp hmem with rfl | hold
  · obtain ⟨row, hrow, hsame⟩ := Option.bind_eq_some_iff.mp hresume
    calc resumeAt = timer.resumeAtMs := h.agrees ref timer row resumeAt htimer hrow hsame
      _ ≤ timer.due := h.due ref timer htimer
      _ ≤ s.now := hdue
  · exact h.early invocation hold resumeAt hresume

/-- The row changes to one that is not parked and has no new time, or goes. -/
theorem unpark (h : CoveredBut s ref) {rows : JsMap AgentRef ParkableRow}
    (hothers : ∀ other ≠ ref, rows.get other = s.rows.get other)
    (hrow : ∀ row, rows.get ref = some row → row.status ≠ .rateLimited ∧
      ∀ resumeAt, row.resumeAt = some resumeAt →
        ∃ before, s.rows.get ref = some before ∧ before.resumeAt = some resumeAt) :
    Covered { s with rows := rows } := by
  have hparked (other : AgentRef) (hother : other ≠ ref) :
      { s with rows := rows }.isParked other = s.isParked other := by
    rw [isParked, isParked, hothers other hother]
  have hbut : CoveredBut { s with rows := rows } ref := by
    refine ⟨⟨h.due, ?_, h.early⟩, ?_⟩
    · intro other timer stored resumeAt htimer hstored hsome
      by_cases hother : other = ref
      · rw [hother] at htimer hstored
        obtain ⟨before, hbefore, hsame⟩ := (hrow stored hstored).2 resumeAt hsome
        exact h.agrees ref timer before resumeAt htimer hbefore hsame
      · rw [hothers other hother] at hstored
        exact h.agrees other timer stored resumeAt htimer hstored hsome
    · intro other hother hstill hcancelled
      exact h.others other hother ((hparked other hother).symm.trans hstill) hcancelled
  apply hbut.covered
  intro hstill
  obtain ⟨stored, hstored, hlimited⟩ := (isParked_eq_true_iff ref).mp hstill
  exact absurd hlimited (hrow stored hstored).1

/-- The row is parked with a time that is not too far ahead. -/
theorem park (h : CoveredBut s ref) {resumeAtMs : ℤ} (hlimit : resumeAtMs - s.now ≤ MAX_TIMER_MS) :
    Covered (s.park ref resumeAtMs) := by
  have hrows (other : AgentRef) : (s.park ref resumeAtMs).rows.get other =
      if other = ref then (s.rows.get ref).map fun _ ↦ ⟨.rateLimited, some resumeAtMs⟩
      else s.rows.get other := JsMap.get_modify _ _ _ _
  have hdropped := h.toPunctual.dropTimer ref
  have hpunctual : Punctual (s.park ref resumeAtMs) := by
    refine Punctual.schedule ⟨hdropped.due, ?_, h.early⟩ hlimit ?_
    · intro other timer row resumeAt htimer hrow hresume
      have hother : other ≠ ref := by
        rintro rfl
        rw [JsMap.get_delete_self] at htimer
        cases htimer
      change (s.park ref resumeAtMs).rows.get other = some row at hrow
      rw [hrows, if_neg hother] at hrow
      exact hdropped.agrees other timer row resumeAt htimer hrow hresume
    · intro row resumeAt hrow hresume
      change (s.park ref resumeAtMs).rows.get ref = some row at hrow
      rw [hrows, if_pos rfl] at hrow
      obtain ⟨before, -, rfl⟩ := Option.map_eq_some_iff.mp hrow
      exact (Option.some.inj hresume).symm
  have hbut : CoveredBut (s.park ref resumeAtMs) ref := by
    refine ⟨hpunctual, ?_⟩
    intro other hother hparked hcancelled
    have hsame : s.isParked other = true := by
      rw [isParked_eq_true_iff] at hparked ⊢
      rwa [hrows, if_neg hother] at hparked
    have hnot : other ∉ s.cancelled := fun hmem ↦
      hcancelled (List.mem_filter.mpr ⟨hmem, decide_eq_true hother⟩)
    refine (h.others other hother hsame hnot).imp_left fun harmed ↦ ?_
    exact (has_set_of_ne hother).trans harmed
  exact hbut.covered fun _ _ ↦ Or.inl (has_park ref resumeAtMs)

end CoveredBut

namespace Covered

variable {s}

theorem but (h : Covered s) (ref : AgentRef) : CoveredBut s ref :=
  ⟨h.toPunctual, fun other _ ↦ h.parked other⟩

theorem cancel (h : Covered s) (ref : AgentRef) : Covered (s.cancel ref) := by
  have hdropped := (h.but ref).dropTimer
  refine ⟨⟨hdropped.due, hdropped.agrees, h.early⟩, ?_⟩
  intro other hparked hcancelled
  have hboth := not_or.mp (List.mem_cons.not.mp hcancelled)
  exact hdropped.others other hboth.1 hparked hboth.2

/-- A handler ends; its row is not parked, has a timer, or had a cancel. -/
theorem endHandler (h : Covered s) (ref : AgentRef)
    (hsafe : s.isParked ref = true → ref ∉ s.cancelled → s.timers.has ref = true) :
    Covered { s with inflightWakeups := s.inflightWakeups.delete ref } := by
  apply ((h.but ref).withInflight fun other hother ↦ has_delete_of_ne hother).covered
  exact fun hparked hcancelled ↦ Or.inl (hsafe hparked hcancelled)

theorem fire (h : Covered s) (ref : AgentRef) (throws : Bool)
    (hallowed : s.keepsWaking (.fire ref throws) = true) : Covered (s.fire ref throws) := by
  unfold RateLimitScheduler.fire
  cases htimer : s.timers.get ref with
  | none => exact h
  | some timer =>
    dsimp only
    split
    · exact h
    · rename_i hdue
      split
      · rename_i hflight
        exact (h.but ref).dropTimer.covered fun _ _ ↦ Or.inr hflight
      · have hinvoked := (h.but ref).invoke htimer (not_lt.mp hdue)
        cases ref with
        | task id =>
          cases throws with
          | true =>
            have hsafe : s.wouldStrand (.task id) false = false := by
              simpa [keepsWaking] using hallowed
            apply hinvoked.covered
            intro hparked hcancelled
            cases not_wouldStrand hsafe hparked hcancelled
          | false =>
            apply hinvoked.unpark
            · intro other hother
              rw [JsMap.get_modify, if_neg hother]
            · intro row hrow
              rw [JsMap.get_modify, if_pos rfl] at hrow
              obtain ⟨before, hbefore, rfl⟩ := Option.map_eq_some_iff.mp hrow
              split
              · exact ⟨by simp, fun resumeAt hresume ↦ by cases hresume⟩
              · rename_i hnot
                exact ⟨hnot, fun resumeAt hresume ↦ ⟨before, hbefore, hresume⟩⟩
        | chat id =>
          apply (hinvoked.withInflight fun other hother ↦ has_set_of_ne hother).covered
          intro _ _
          right
          rw [JsMap.has, JsMap.get_set_self]
          rfl

theorem beginResume (h : Covered s) (ref : AgentRef) (outcome : ChatResume)
    (hallowed : s.keepsWaking (.beginResume ref outcome) = true) :
    Covered (s.beginResume ref outcome) := by
  unfold RateLimitScheduler.beginResume
  split
  · cases hrow : s.rows.get ref with
    | none =>
      apply h.endHandler ref
      intro hparked
      simp [isParked, hrow] at hparked
    | some row =>
      dsimp only
      split
      · cases outcome with
        | noUserMessage =>
          apply ((h.but ref).withInflight fun other hother ↦ has_delete_of_ne hother).unpark
          · exact fun other hother ↦ JsMap.get_set_of_ne _ _ hother
          · intro stored hstored
            rw [JsMap.get_set_self] at hstored
            cases hstored
            exact ⟨by simp, fun resumeAt hresume ↦ by cases hresume⟩
        | runs =>
          apply ((h.but ref).withInflight fun other hother ↦ has_set_of_ne hother).unpark
          · exact fun other hother ↦ JsMap.get_set_of_ne _ _ hother
          · intro stored hstored
            rw [JsMap.get_set_self] at hstored
            cases hstored
            exact ⟨by simp, fun resumeAt hresume ↦ by cases hresume⟩
        | throws =>
          apply h.endHandler ref
          exact not_wouldStrand (by simpa [keepsWaking] using hallowed)
      · rename_i hstatus
        apply h.endHandler ref
        intro hparked
        simp [isParked, hrow, hstatus] at hparked
  · exact h

theorem endResume (h : Covered s) (ref : AgentRef) (outcome : ChatTurn)
    (hallowed : s.keepsWaking (.endResume ref outcome) = true) :
    Covered (s.endResume ref outcome) := by
  unfold RateLimitScheduler.endResume
  split
  · have hended := (h.but ref).withInflight fun other hother ↦ has_delete_of_ne hother
    cases outcome with
    | idle =>
      apply hended.unpark
      · intro other hother
        rw [JsMap.get_modify, if_neg hother]
      · intro stored hstored
        rw [JsMap.get_modify, if_pos rfl] at hstored
        obtain ⟨before, hbefore, rfl⟩ := Option.map_eq_some_iff.mp hstored
        exact ⟨by simp, fun resumeAt hresume ↦ ⟨before, hbefore, hresume⟩⟩
    | limited resumeAtMs => exact hended.park (by simpa [keepsWaking] using hallowed)
    | throws =>
      apply h.endHandler ref
      exact not_wouldStrand (by simpa [keepsWaking] using hallowed)
  · exact h

theorem write (h : Covered s) (ref : AgentRef) (status : RowStatus) (clears : Bool) :
    Covered (s.write ref status clears) := by
  unfold RateLimitScheduler.write
  split
  · exact h
  · rename_i hstatus
    apply (h.but ref).unpark
    · exact fun other hother ↦ JsMap.get_set_of_ne _ _ hother
    · intro stored hstored
      rw [JsMap.get_set_self] at hstored
      cases hstored
      refine ⟨hstatus, fun resumeAt hresume ↦ ?_⟩
      cases clears with
      | true => cases hresume
      | false => exact Option.bind_eq_some_iff.mp hresume

theorem delete (h : Covered s) (ref : AgentRef) :
    Covered { s with rows := s.rows.delete ref } := by
  apply (h.but ref).unpark
  · exact fun other hother ↦ JsMap.get_delete_of_ne _ hother
  · intro stored hstored
    rw [JsMap.get_delete_self] at hstored
    cases hstored

/-- The daemon boots with rows that all have a time that is not too far ahead, or had a cancel. -/
theorem restart (hearly : ∀ invocation ∈ s.invocations, ∀ resumeAt,
      invocation.resumeAt = some resumeAt → resumeAt ≤ invocation.time)
    (hallowed : s.keepsWaking .restart = true) : Covered s.restart := by
  simp only [keepsWaking, List.all_eq_true, Prod.forall, JsMap.mem_entries_iff,
    Bool.or_eq_true, bne_iff_ne] at hallowed
  have hbefore {ref : AgentRef} {row : ParkableRow}
      (hrow : s.resetStaleRows.rows.get ref = some row) (hlimited : row.status = .rateLimited) :
      s.rows.get ref = some row := by
    rw [resetStaleRows, JsMap.get_mapWithKey] at hrow
    obtain ⟨before, hget, rfl⟩ := Option.map_eq_some_iff.mp hrow
    split at hlimited
    · cases ref <;> cases hlimited
    · rename_i hrunning
      rw [hget, if_neg hrunning]
  have hpunctual : Punctual s.resetStaleRows := by
    refine ⟨?_, ?_, hearly⟩
    · intro ref timer htimer
      cases htimer
    · intro ref timer row resumeAt htimer
      cases htimer
  obtain ⟨timers, hfold, htimers, -, harmed⟩ := hpunctual.recover s.resetStaleRows.rows.entries
    (fun entry hentry ↦ (JsMap.mem_entries_iff _ _ _).mp hentry)
    (fun entry hentry resumeAt hlimited hresume ↦ by
      have hrow := hbefore ((JsMap.mem_entries_iff _ _ _).mp hentry) hlimited
      rcases hallowed entry.1 entry.2 hrow with hnot | hsafe
      · exact absurd hlimited hnot
      · rw [hresume] at hsafe
        exact of_decide_eq_true hsafe)
  rw [RateLimitScheduler.restart, RateLimitScheduler.recoverFromDatabase, hfold]
  refine ⟨htimers, ?_⟩
  intro ref hparked hcancelled
  obtain ⟨row, hrow, hlimited⟩ := (isParked_eq_true_iff ref).mp hparked
  refine Or.inl (harmed (ref, row) ((JsMap.mem_entries_iff _ _ _).mpr hrow) hlimited ?_)
  rcases hallowed ref row (hbefore hrow hlimited) with hnot | hsafe
  · exact absurd hlimited hnot
  · cases hresume : row.resumeAt with
    | some resumeAt => rfl
    | none =>
      rw [hresume] at hsafe
      exact absurd (List.contains_iff_mem.mp hsafe) hcancelled

end Covered

/-- In a run of the daemon whose times are at most `MAX_TIMER_MS` ahead, that boots on no row parked
without a time and in which no handler throws where nothing else wakes its row, every state keeps
the parked rows waking. -/
theorem parked_rows_wake (now : ℤ) (rows : JsMap AgentRef ParkableRow)
    (events : List RateLimitEvent)
    (hevents : Disciplined step (fun s event ↦ s.keepsWaking event = true)
      { now := now, rows := rows } (.restart :: events))
    (before : List RateLimitEvent) (hbefore : before <+: events) :
    Waking (run step { now := now, rows := rows } (.restart :: before)) := by
  have hstep (s : RateLimitScheduler) (event : RateLimitEvent) (h : Covered s)
      (hallowed : s.keepsWaking event = true) : Covered (s.step event) := by
    cases event with
    | advance elapsed => exact ⟨⟨h.due, h.agrees, h.early⟩, h.parked⟩
    | park ref resumeAtMs =>
      exact (h.but ref).park (by simpa [keepsWaking] using hallowed)
    | cancel ref => exact h.cancel ref
    | fire ref throws => exact h.fire ref throws hallowed
    | beginResume ref outcome => exact h.beginResume ref outcome hallowed
    | endResume ref outcome => exact h.endResume ref outcome hallowed
    | restart => exact Covered.restart h.early hallowed
    | write ref status clears => exact h.write ref status clears
    | delete ref => exact h.delete ref
  have hbooted : Covered (step { now := now, rows := rows } .restart) :=
    Covered.restart (fun invocation hmem ↦ by cases hmem) hevents.1
  obtain ⟨after, rfl⟩ := hbefore
  exact (run_invariant_before hstep hbooted before after hevents.2).waking

/-- A parked chat wakes when its time has come, and its turn is parked again. -/
theorem parked_rows_wake_of_chat :
    Waking (run step
      { now := 0, rows := JsMap.empty.set (.chat 7) ⟨.rateLimited, some 1000⟩ }
      [.restart, .advance 1000, .fire (.chat 7) false, .beginResume (.chat 7) .runs,
        .endResume (.chat 7) (.limited 9000)]) :=
  parked_rows_wake 0 _
    [.advance 1000, .fire (.chat 7) false, .beginResume (.chat 7) .runs,
      .endResume (.chat 7) (.limited 9000)]
    (by decide +kernel) _ (List.prefix_refl _)

/-- A row parked without a time is not found at boot; a row parked for thirty days wakes after
twenty-four; and a chat whose handler throws stays parked. -/
theorem rows_not_waking :
    ¬Waking (run step
      { now := 0, rows := JsMap.empty.set (.task 5) ⟨.rateLimited, none⟩ } [.restart]) ∧
    ¬Waking (run step
      { now := 0, rows := JsMap.empty.set (.chat 7) ⟨.rateLimited, some 2592000000⟩ }
      [.restart, .advance 2073600000, .fire (.chat 7) false]) ∧
    ¬Waking (run step
      { now := 0, rows := JsMap.empty.set (.chat 7) ⟨.rateLimited, some 1000⟩ }
      [.restart, .advance 1000, .fire (.chat 7) false, .beginResume (.chat 7) .throws]) := by
  refine ⟨?_, ?_, ?_⟩
  · intro hwaking
    rcases hwaking.wakes (.task 5) (by decide +kernel) (by decide +kernel) with
      harmed | ⟨hloading, -⟩ | ⟨hresumed, -⟩
    · exact absurd harmed (by decide +kernel)
    · cases hloading
    · cases hresumed
  · intro hwaking
    exact absurd (hwaking.never_early ⟨.chat 7, 2073600000, some 2592000000⟩
      (List.mem_singleton.mpr rfl) 2592000000 rfl) (by decide)
  · intro hwaking
    rcases hwaking.wakes (.chat 7) (by decide +kernel) (by decide +kernel) with
      harmed | ⟨hloading, -⟩ | ⟨hresumed, -⟩
    · exact absurd harmed (by decide +kernel)
    · cases hloading
    · cases hresumed

end RateLimitScheduler

end Flockctl.RateLimits
