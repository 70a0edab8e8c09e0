import Flockctl.Transition.Run
import Flockctl.Wakeups.Worker

/-!
# A wakeup fires once

Rows leave `pending` once and a callback completes once for each row, in every run. A row of the
snapshot may be cancelled, or get late, while the callbacks before it run, and it is cancelled while
its own callback runs; the worker looks at none of this before it goes on.
-/

namespace Flockctl.Wakeups

open Collections Transition

namespace WakeupWorker

/-- No callback starts for a row that is cancelled or missed, or too late; and `onFired` is called
where `markFired` found the row pending. -/
structure CallsHold (s : WakeupWorker) : Prop where
  not_stale : ∀ call ∈ s.fireCalls, call.status ≠ some .cancelled ∧ call.status ≠ some .missed
  punctual : ∀ call ∈ s.fireCalls, call.time ≤ call.fireAt + WAKEUP_FIRE_GRACE_SECONDS + 1
  fired : ∀ call ∈ s.firedCalls, call.before = .pending

/-- Each row leaves `pending` once and its callback completes once, beside what holds of the calls. -/
structure FiresOnce (s : WakeupWorker) : Prop extends CallsHold s where
  leaves_once : s.departures.Nodup
  completes_once : s.completions.Nodup

/-- The next row of the snapshot is neither cancelled nor missed nor too late. -/
def startsWell (s : WakeupWorker) : List (ℕ × WakeupRow) → Bool
  | [] => true
  | (id, row) :: _ =>
    (s.rows.get id).all (fun stored ↦ stored.status ≠ .cancelled && stored.status ≠ .missed) &&
      s.now ≤ row.fireAt + WAKEUP_FIRE_GRACE_SECONDS + 1

/-- No row within the grace at the first clock read of a tick is more than a second beyond it at the
second one; the next row of the snapshot can start when a callback ends; and the row of a callback
that completes is pending. -/
def firesWell (s : WakeupWorker) : WakeupEvent → Bool
  | .runWakeupTick elapsed => s.ticking.isSome || s.rows.entries.all fun entry ↦
      entry.2.status ≠ .pending || entry.2.fireAt + WAKEUP_FIRE_GRACE_SECONDS < s.now ||
        s.now + elapsed ≤ entry.2.fireAt + WAKEUP_FIRE_GRACE_SECONDS + 1
  | .fireReturns =>
    match s.ticking with
    | none => true
    | some tick => (s.rows.get tick.current).all (·.status = .pending) && s.startsWell tick.rest
  | .fireThrows =>
    match s.ticking with
    | none => true
    | some tick => s.startsWell tick.rest
  | .record _ | .cancel _ | .fireNow _ | .remove _ | .advance _ => true

/-- The row is gone or not pending. -/
def Settled (s : WakeupWorker) (id : ℕ) : Prop :=
  id < s.nextId ∧ ∀ row, s.rows.get id = some row → row.status ≠ .pending

/-- What has left or completed is settled, and the rows of a snapshot are distinct and have not
completed. -/
structure Orderly (s : WakeupWorker) : Prop where
  leaves_once : s.departures.Nodup
  completes_once : s.completions.Nodup
  known : ∀ id row, s.rows.get id = some row → id < s.nextId
  left : ∀ id ∈ s.departures, s.Settled id
  completed : ∀ id ∈ s.completions, s.Settled id
  snapshot : ∀ tick, s.ticking = some tick →
    (tick.current :: tick.rest.map Prod.fst).Nodup ∧
      ∀ id ∈ tick.current :: tick.rest.map Prod.fst, id < s.nextId ∧ id ∉ s.completions

section

variable {s : WakeupWorker}

/-! ## The statements -/

theorem status_leave (row : WakeupRow) {status : WakeupStatus} (hstatus : status ≠ .pending)
    (asOf : ℕ) : (row.leave status asOf).status = status := by
  cases status with
  | pending => exact absurd rfl hstatus
  | fired => rfl
  | cancelled => rfl
  | missed => rfl

theorem transition_cases (status : WakeupStatus) (id : ℕ) :
    (∃ row, s.rows.get id = some row ∧ row.status = .pending ∧ s.transition status id =
      { s with rows := s.rows.set id (row.leave status s.now), departures := id :: s.departures }) ∨
    ((∀ row, s.rows.get id = some row → row.status ≠ .pending) ∧ s.transition status id = s) := by
  unfold transition
  cases hrow : s.rows.get id with
  | none => exact .inr ⟨fun row hnone ↦ (by cases hnone), rfl⟩
  | some row =>
    by_cases hpending : row.status = .pending
    · exact .inl ⟨row, rfl, hpending, if_pos hpending⟩
    · refine .inr ⟨?_, if_neg hpending⟩
      intro stored hstored
      cases hstored
      exact hpending

/-- A statement touches the rows and the departures only. -/
theorem transition_frame (status : WakeupStatus) (id : ℕ) : ∃ rows departures,
    s.transition status id = { s with rows := rows, departures := departures } := by
  rcases s.transition_cases status id with ⟨row, -, -, heq⟩ | ⟨-, heq⟩
  · exact ⟨_, _, heq⟩
  · exact ⟨s.rows, s.departures, heq⟩

/-- A row that is pending after a statement about another status is the row from before, and not the
one the statement is about. -/
theorem get_transition {status : WakeupStatus} (hstatus : status ≠ .pending) {id other : ℕ}
    {row : WakeupRow} (hrow : (s.transition status id).rows.get other = some row)
    (hpending : row.status = .pending) : other ≠ id ∧ s.rows.get other = some row := by
  rcases s.transition_cases status id with ⟨before, -, -, heq⟩ | ⟨hsettled, heq⟩
  · rw [heq, JsMap.get_set] at hrow
    split_ifs at hrow with hsame
    · cases hrow
      rw [status_leave before hstatus] at hpending
      exact absurd hpending hstatus
    · exact ⟨hsame, hrow⟩
  · rw [heq] at hrow
    refine ⟨?_, hrow⟩
    intro hsame
    exact hsettled row (hsame ▸ hrow) hpending

theorem get_transition_of_ne (status : WakeupStatus) {id other : ℕ} (hother : other ≠ id) :
    (s.transition status id).rows.get other = s.rows.get other := by
  rcases s.transition_cases status id with ⟨before, -, -, heq⟩ | ⟨-, heq⟩
  · rw [heq]
    exact JsMap.get_set_of_ne _ _ hother
  · rw [heq]

theorem Settled.transition {other : ℕ} (h : s.Settled other) {status : WakeupStatus}
    (hstatus : status ≠ .pending) (id : ℕ) : (s.transition status id).Settled other := by
  refine ⟨?_, ?_⟩
  · obtain ⟨rows, departures, heq⟩ := s.transition_frame status id
    rw [heq]
    exact h.1
  · intro row hrow hpending
    exact h.2 row (get_transition hstatus hrow hpending).2 hpending

/-- The row a statement is about is settled after it. -/
theorem settled_transition {status : WakeupStatus} (hstatus : status ≠ .pending) {id : ℕ}
    (hid : id < s.nextId) : (s.transition status id).Settled id := by
  refine ⟨?_, ?_⟩
  · obtain ⟨rows, departures, heq⟩ := s.transition_frame status id
    rw [heq]
    exact hid
  · intro row hrow hpending
    exact absurd rfl (get_transition hstatus hrow hpending).1

theorem Orderly.transition (h : Orderly s) {status : WakeupStatus} (hstatus : status ≠ .pending)
    (id : ℕ) : Orderly (s.transition status id) := by
  have hsettled {other : ℕ} (hother : s.Settled other) : (s.transition status id).Settled other :=
    hother.transition hstatus id
  rcases s.transition_cases status id with ⟨row, hrow, hpending, heq⟩ | ⟨-, heq⟩
  · have hid := h.known id row hrow
    have hleft : id ∉ s.departures := fun hmem ↦ (h.left id hmem).2 row hrow hpending
    have hself : (s.transition status id).Settled id := settled_transition hstatus hid
    rw [heq] at hsettled hself ⊢
    refine ⟨List.nodup_cons.mpr ⟨hleft, h.leaves_once⟩, h.completes_once, ?_, ?_, ?_, h.snapshot⟩
    · intro other stored hstored
      rw [JsMap.get_set] at hstored
      split_ifs at hstored with hsame
      · exact hsame ▸ hid
      · exact h.known other stored hstored
    · intro other hother
      rcases List.mem_cons.mp hother with rfl | hbefore
      · exact hself
      · exact hsettled (h.left other hbefore)
    · exact fun other hother ↦ hsettled (h.completed other hother)
  · rw [heq]
    exact h

/-! ## The sweep -/

theorem transitions_keep {invariant : WakeupWorker → Prop} {status : WakeupStatus}
    (hstep : ∀ worker id, invariant worker → invariant (worker.transition status id))
    (ids : List ℕ) (h : invariant s) :
    invariant (ids.foldl (fun worker id ↦ worker.transition status id) s) := by
  induction ids generalizing s with
  | nil => exact h
  | cons id rest ih => exact ih (hstep s id h)

theorem get_transitions {status : WakeupStatus} (hstatus : status ≠ .pending) (ids : List ℕ)
    {id : ℕ} {row : WakeupRow}
    (hrow : (ids.foldl (fun worker id ↦ worker.transition status id) s).rows.get id = some row)
    (hpending : row.status = .pending) : id ∉ ids ∧ s.rows.get id = some row := by
  induction ids generalizing s with
  | nil => exact ⟨List.not_mem_nil, hrow⟩
  | cons first rest ih =>
    obtain ⟨hrest, hfirst⟩ := ih hrow
    obtain ⟨hne, hbefore⟩ := get_transition hstatus hfirst hpending
    exact ⟨fun hmem ↦ (List.mem_cons.mp hmem).elim hne hrest, hbefore⟩

theorem get_transitions_of_not_mem (status : WakeupStatus) (ids : List ℕ) {id : ℕ}
    (hid : id ∉ ids) :
    (ids.foldl (fun worker id ↦ worker.transition status id) s).rows.get id = s.rows.get id := by
  induction ids generalizing s with
  | nil => rfl
  | cons first rest ih =>
    rw [List.mem_cons, not_or] at hid
    rw [List.foldl_cons, ih hid.2, get_transition_of_ne status hid.1]

theorem sweepMissed_frame : ∃ rows departures,
    s.sweepMissed = { s with rows := rows, departures := departures } := by
  have hstep (worker : WakeupWorker) (id : ℕ)
      (h : ∃ rows departures, worker = { s with rows := rows, departures := departures }) :
      ∃ rows departures, worker.transition .missed id =
        { s with rows := rows, departures := departures } := by
    obtain ⟨rows, departures, rfl⟩ := h
    obtain ⟨rows, departures, heq⟩ :=
      transition_frame (s := { s with rows := rows, departures := departures }) .missed id
    exact ⟨rows, departures, heq⟩
  exact transitions_keep hstep s.overdue ⟨s.rows, s.departures, rfl⟩

theorem mem_overdue_iff (id : ℕ) : id ∈ s.overdue ↔
    ∃ row, s.rows.get id = some row ∧ row.status = .pending ∧
      row.fireAt + WAKEUP_FIRE_GRACE_SECONDS < s.now := by
  simp only [overdue, List.mem_map, List.mem_filter, Bool.and_eq_true, decide_eq_true_eq,
    Prod.exists, exists_and_right, exists_eq_right, JsMap.mem_entries_iff]

/-- After the sweep a row is pending exactly when it was and is not overdue. -/
theorem pending_sweepMissed_iff (id : ℕ) (row : WakeupRow) (hpending : row.status = .pending) :
    s.sweepMissed.rows.get id = some row ↔
      s.rows.get id = some row ∧ s.now ≤ row.fireAt + WAKEUP_FIRE_GRACE_SECONDS := by
  constructor
  · intro hrow
    obtain ⟨hkept, hbefore⟩ := get_transitions (by decide) s.overdue hrow hpending
    refine ⟨hbefore, Nat.not_lt.mp fun hlate ↦ ?_⟩
    exact hkept ((mem_overdue_iff id).mpr ⟨row, hbefore, hpending, hlate⟩)
  · rintro ⟨hbefore, hgrace⟩
    rw [sweepMissed, get_transitions_of_not_mem, hbefore]
    intro hoverdue
    obtain ⟨stored, hstored, -, hlate⟩ := (mem_overdue_iff id).mp hoverdue
    rw [hbefore] at hstored
    cases hstored
    omega

theorem mem_findDuePending_iff (id : ℕ) (row : WakeupRow) : (id, row) ∈ s.findDuePending ↔
    s.rows.get id = some row ∧ row.status = .pending ∧ row.fireAt ≤ s.now := by
  simp only [findDuePending, List.mem_insertionSort, List.mem_filter, JsMap.mem_entries_iff,
    Bool.and_eq_true, decide_eq_true_eq]

theorem nodup_findDuePending : (s.findDuePending.map Prod.fst).Nodup := by
  have hperm := (List.perm_insertionSort
    (fun first second : ℕ × WakeupRow ↦ first.2.fireAt ≤ second.2.fireAt)
    (s.rows.entries.filter fun entry ↦
      entry.2.status = .pending && entry.2.fireAt ≤ s.now)).map Prod.fst
  exact hperm.nodup_iff.mpr (s.rows.nodup.sublist (List.filter_sublist.map Prod.fst))

/-! ## The loop -/

theorem Orderly.advance (h : Orderly s) (elapsed : ℕ) :
    Orderly { s with now := s.now + elapsed } where
  leaves_once := h.leaves_once
  completes_once := h.completes_once
  known := h.known
  left := h.left
  completed := h.completed
  snapshot := h.snapshot

theorem Orderly.stop (h : Orderly s) : Orderly { s with ticking := none } where
  leaves_once := h.leaves_once
  completes_once := h.completes_once
  known := h.known
  left := h.left
  completed := h.completed
  snapshot tick htick := by cases htick

theorem Orderly.fireNext (h : Orderly { s with ticking := none }) (rest : List (ℕ × WakeupRow))
    (hnodup : (rest.map Prod.fst).Nodup)
    (hrest : ∀ id ∈ rest.map Prod.fst, id < s.nextId ∧ id ∉ s.completions) :
    Orderly (s.fireNext rest) := by
  match rest with
  | [] => exact h
  | (id, row) :: rest =>
    refine ⟨h.leaves_once, h.completes_once, h.known, h.left, h.completed, ?_⟩
    intro tick htick
    cases htick
    exact ⟨hnodup, hrest⟩

theorem Orderly.runWakeupTick (h : Orderly s) (elapsed : ℕ) :
    Orderly (s.runWakeupTick elapsed) := by
  unfold WakeupWorker.runWakeupTick
  cases hticking : s.ticking with
  | some tick => exact h
  | none =>
    have hswept : Orderly s.sweepMissed :=
      transitions_keep (fun worker id h ↦ h.transition (by decide) id) s.overdue h
    have hread := hswept.advance elapsed
    simp only [Option.isSome_none, Bool.false_eq_true, if_false]
    apply Orderly.fireNext hread.stop
    · exact nodup_findDuePending
    · intro id hid
      obtain ⟨⟨_, row⟩, hentry, rfl⟩ := List.mem_map.mp hid
      obtain ⟨hrow, hpending, -⟩ := (mem_findDuePending_iff _ _).mp hentry
      refine ⟨hread.known _ row hrow, fun hcompleted ↦ ?_⟩
      exact (hread.completed _ hcompleted).2 row hrow hpending

theorem Orderly.complete (h : Orderly s) {id : ℕ} (hself : s.Settled id)
    (hfresh : id ∉ s.completions) (calls : List FiredCall) :
    Orderly { s with
      completions := id :: s.completions
      firedCalls := calls
      ticking := none } where
  leaves_once := h.leaves_once
  completes_once := List.nodup_cons.mpr ⟨hfresh, h.completes_once⟩
  known := h.known
  left := h.left
  completed other hother := by
    rcases List.mem_cons.mp hother with rfl | hbefore
    · exact hself
    · exact h.completed other hbefore
  snapshot tick htick := by cases htick

/-- The return of a callback marks its row and records it, and the other rows stay. -/
theorem fireReturns_eq {tick : WakeupTick} (hticking : s.ticking = some tick) :
    ∃ rows departures, s.markFired tick.current =
        { s with rows := rows, departures := departures } ∧
      (∀ id, id ≠ tick.current → rows.get id = s.rows.get id) ∧
      s.fireReturns = { s with
        rows := rows
        departures := departures
        completions := tick.current :: s.completions
        firedCalls := ((s.rows.get tick.current).map fun (row : WakeupRow) ↦
          FiredCall.mk tick.current row.status).toList ++ s.firedCalls }.fireNext tick.rest := by
  obtain ⟨rows, departures, heq⟩ := s.transition_frame .fired tick.current
  refine ⟨rows, departures, heq, ?_, ?_⟩
  · intro id hid
    have hother := s.get_transition_of_ne .fired hid
    rw [heq] at hother
    exact hother
  · simp only [WakeupWorker.fireReturns, hticking, markFired, heq]

theorem Orderly.fireReturns (h : Orderly s) : Orderly s.fireReturns := by
  cases hticking : s.ticking with
  | none =>
    rw [WakeupWorker.fireReturns, hticking]
    exact h
  | some tick =>
    obtain ⟨hnodup, hrest⟩ := h.snapshot tick hticking
    obtain ⟨hcurrent, hdistinct⟩ := List.nodup_cons.mp hnodup
    obtain ⟨hknown, hfresh⟩ := hrest tick.current List.mem_cons_self
    obtain ⟨rows, departures, hmark, -, heq⟩ := fireReturns_eq hticking
    have hself : (s.markFired tick.current).Settled tick.current :=
      settled_transition (by decide) hknown
    have hmarked : Orderly (s.markFired tick.current) := h.transition (by decide) tick.current
    rw [hmark] at hself hmarked
    rw [heq]
    apply Orderly.fireNext (hmarked.complete hself hfresh _)
    · exact hdistinct
    · intro id hid
      obtain ⟨hidKnown, hidFresh⟩ := hrest id (List.mem_cons_of_mem _ hid)
      refine ⟨hidKnown, fun hmem ↦ ?_⟩
      rcases List.mem_cons.mp hmem with hsame | hbefore
      · exact hcurrent (hsame ▸ hid)
      · exact hidFresh hbefore

theorem Orderly.fireThrows (h : Orderly s) : Orderly s.fireThrows := by
  unfold WakeupWorker.fireThrows
  cases hticking : s.ticking with
  | none => exact h
  | some tick =>
    obtain ⟨hnodup, hrest⟩ := h.snapshot tick hticking
    exact h.stop.fireNext tick.rest (List.nodup_cons.mp hnodup).2
      fun id hid ↦ hrest id (List.mem_cons_of_mem _ hid)

theorem Orderly.record (h : Orderly s) (input : RecordWakeupInput) :
    Orderly (s.record input) := by
  unfold WakeupWorker.record
  split
  · exact h
  · rename_i row hrow
    have hsettled {id : ℕ} (hid : s.Settled id) :
        Settled { s with rows := s.rows.set s.nextId row, nextId := s.nextId + 1 } id := by
      refine ⟨Nat.lt_succ_of_lt hid.1, ?_⟩
      intro stored hstored
      rw [JsMap.get_set_of_ne _ _ (Nat.ne_of_lt hid.1)] at hstored
      exact hid.2 stored hstored
    refine ⟨h.leaves_once, h.completes_once, ?_,
      fun id hid ↦ hsettled (h.left id hid), fun id hid ↦ hsettled (h.completed id hid), ?_⟩
    · intro id stored hstored
      rw [JsMap.get_set] at hstored
      split_ifs at hstored with hnew
      · exact hnew ▸ Nat.lt_succ_self _
      · exact Nat.lt_succ_of_lt (h.known id stored hstored)
    · intro tick htick
      obtain ⟨hnodup, hrest⟩ := h.snapshot tick htick
      exact ⟨hnodup, fun id hid ↦ ⟨Nat.lt_succ_of_lt (hrest id hid).1, (hrest id hid).2⟩⟩

theorem Orderly.remove (h : Orderly s) (id : ℕ) :
    Orderly { s with rows := s.rows.delete id } := by
  have hkept {other : ℕ} {row : WakeupRow} (hrow : (s.rows.delete id).get other = some row) :
      s.rows.get other = some row := (JsMap.get_delete_eq_some_iff.mp hrow).2
  have hsettled {other : ℕ} (hother : s.Settled other) :
      Settled { s with rows := s.rows.delete id } other :=
    ⟨hother.1, fun row hrow ↦ hother.2 row (hkept hrow)⟩
  exact ⟨h.leaves_once, h.completes_once,
    fun other row hrow ↦ h.known other row (hkept hrow),
    fun other hother ↦ hsettled (h.left other hother),
    fun other hother ↦ hsettled (h.completed other hother), h.snapshot⟩

theorem Orderly.step (h : Orderly s) (event : WakeupEvent) : Orderly (s.step event) := by
  cases event with
  | record input => exact h.record input
  | cancel id => exact h.transition (by decide) id
  | fireNow id => exact h.transition (by decide) id
  | remove id => exact h.remove id
  | advance elapsed => exact h.advance elapsed
  | runWakeupTick elapsed => exact h.runWakeupTick elapsed
  | fireReturns => exact h.fireReturns
  | fireThrows => exact h.fireThrows

/-! ## The calls -/

/-- The loop makes one call, which holds exactly when its row can start. -/
theorem callsHold_fireNext_iff (h : CallsHold s) (rest : List (ℕ × WakeupRow)) :
    CallsHold (s.fireNext rest) ↔ s.startsWell rest = true := by
  match rest with
  | [] => exact ⟨fun _ ↦ rfl, fun _ ↦ ⟨h.not_stale, h.punctual, h.fired⟩⟩
  | (id, row) :: rest =>
    have hlive (stale : WakeupStatus) : (s.rows.get id).map WakeupRow.status ≠ some stale ↔
        ∀ stored, s.rows.get id = some stored → stored.status ≠ stale := by
      simp only [ne_eq, Option.map_eq_some_iff, not_exists, not_and]
    simp only [startsWell, Bool.and_eq_true, decide_eq_true_eq, Option.all_eq_true]
    constructor
    · intro hcalls
      obtain ⟨hcancelled, hmissed⟩ := hcalls.not_stale _ List.mem_cons_self
      refine ⟨fun stored hstored ↦ ⟨?_, ?_⟩, hcalls.punctual _ List.mem_cons_self⟩
      · exact (hlive .cancelled).mp hcancelled stored hstored
      · exact (hlive .missed).mp hmissed stored hstored
    · rintro ⟨hstored, hpunctual⟩
      have hcancelled := (hlive .cancelled).mpr fun stored hget ↦ (hstored stored hget).1
      have hmissed := (hlive .missed).mpr fun stored hget ↦ (hstored stored hget).2
      exact ⟨List.forall_mem_cons.mpr ⟨⟨hcancelled, hmissed⟩, h.not_stale⟩,
        List.forall_mem_cons.mpr ⟨hpunctual, h.punctual⟩, h.fired⟩

/-- The first due row is the earliest. -/
theorem fireAt_head_le {first : ℕ × WakeupRow} {rest : List (ℕ × WakeupRow)}
    (hdue : s.findDuePending = first :: rest) (entry : ℕ × WakeupRow)
    (hentry : entry ∈ s.findDuePending) : first.2.fireAt ≤ entry.2.fireAt := by
  have htotal : Std.Total fun first second : ℕ × WakeupRow ↦ first.2.fireAt ≤ second.2.fireAt :=
    ⟨fun _ _ ↦ Nat.le_total _ _⟩
  have htrans : IsTrans (ℕ × WakeupRow) fun first second ↦ first.2.fireAt ≤ second.2.fireAt :=
    ⟨fun _ _ _ ↦ Nat.le_trans⟩
  have hsorted : s.findDuePending.Pairwise
      fun first second ↦ first.2.fireAt ≤ second.2.fireAt :=
    List.pairwise_insertionSort _ _
  rw [hdue] at hsorted hentry
  rcases List.mem_cons.mp hentry with rfl | hlater
  · exact Nat.le_refl _
  · exact (List.pairwise_cons.mp hsorted).1 entry hlater

/-- The first row a tick finds is punctual exactly when every row that the sweep spares is. -/
theorem startsWell_findDuePending_iff (elapsed : ℕ) :
    startsWell { s.sweepMissed with now := s.sweepMissed.now + elapsed }
        (findDuePending { s.sweepMissed with now := s.sweepMissed.now + elapsed }) = true ↔
      ∀ id row, s.rows.get id = some row → row.status = .pending →
        s.now ≤ row.fireAt + WAKEUP_FIRE_GRACE_SECONDS →
          s.now + elapsed ≤ row.fireAt + WAKEUP_FIRE_GRACE_SECONDS + 1 := by
  have hnow : s.sweepMissed.now = s.now := by
    obtain ⟨rows, departures, heq⟩ := s.sweepMissed_frame
    rw [heq]
  have hdue (id : ℕ) (row : WakeupRow) :
      (id, row) ∈ findDuePending { s.sweepMissed with now := s.sweepMissed.now + elapsed } ↔
        row.status = .pending ∧ s.rows.get id = some row ∧
          s.now ≤ row.fireAt + WAKEUP_FIRE_GRACE_SECONDS ∧ row.fireAt ≤ s.now + elapsed := by
    rw [mem_findDuePending_iff, hnow]
    constructor
    · rintro ⟨hrow, hpending, hfireAt⟩
      obtain ⟨hbefore, hgrace⟩ := (pending_sweepMissed_iff id row hpending).mp hrow
      exact ⟨hpending, hbefore, hgrace, hfireAt⟩
    · rintro ⟨hpending, hbefore, hgrace, hfireAt⟩
      exact ⟨(pending_sweepMissed_iff id row hpending).mpr ⟨hbefore, hgrace⟩, hpending, hfireAt⟩
  constructor
  · intro hstarts id row hrow hpending hgrace
    by_contra hlate
    have hmem := (hdue id row).mpr ⟨hpending, hrow, hgrace, by omega⟩
    cases hsnapshot :
        findDuePending { s.sweepMissed with now := s.sweepMissed.now + elapsed } with
    | nil =>
      rw [hsnapshot] at hmem
      cases hmem
    | cons first rest =>
      obtain ⟨firstId, firstRow⟩ := first
      have hfirst : firstRow.fireAt ≤ row.fireAt := fireAt_head_le hsnapshot _ hmem
      rw [hsnapshot, startsWell, Bool.and_eq_true, decide_eq_true_eq] at hstarts
      have hsoon : s.sweepMissed.now + elapsed ≤
          firstRow.fireAt + WAKEUP_FIRE_GRACE_SECONDS + 1 := hstarts.2
      omega
  · intro hsoon
    cases hsnapshot :
        findDuePending { s.sweepMissed with now := s.sweepMissed.now + elapsed } with
    | nil => rfl
    | cons first rest =>
      obtain ⟨id, row⟩ := first
      have hmem : (id, row) ∈
          findDuePending { s.sweepMissed with now := s.sweepMissed.now + elapsed } :=
        hsnapshot ▸ List.mem_cons_self
      obtain ⟨hpending, hrow, hgrace, -⟩ := (hdue id row).mp hmem
      have hkept := (pending_sweepMissed_iff id row hpending).mpr ⟨hrow, hgrace⟩
      have hpunctual := hsoon id row hrow hpending hgrace
      simp only [startsWell, hkept, hpending, hnow, hpunctual, Option.all_some, decide_true,
        Bool.and_true]
      rfl

/-- The next row can start as long as the clock and the rows of the snapshot are as they were. -/
theorem startsWell_congr {after : WakeupWorker} {rest : List (ℕ × WakeupRow)}
    (hnow : after.now = s.now)
    (hrows : ∀ id ∈ rest.map Prod.fst, after.rows.get id = s.rows.get id) :
    after.startsWell rest = s.startsWell rest := by
  match rest with
  | [] => rfl
  | (id, row) :: rest =>
    rw [startsWell, startsWell, hnow, hrows id List.mem_cons_self]

/-- After the return of a callback the loop goes on with the clock and the rows of the snapshot as
they were. -/
theorem Orderly.fireReturns_next (horder : Orderly s) {tick : WakeupTick}
    (hticking : s.ticking = some tick) :
    ∃ after : WakeupWorker, s.fireReturns = after.fireNext tick.rest ∧ after.now = s.now ∧
      after.fireCalls = s.fireCalls ∧
      after.firedCalls = ((s.rows.get tick.current).map fun (row : WakeupRow) ↦
        FiredCall.mk tick.current row.status).toList ++ s.firedCalls ∧
      ∀ id ∈ tick.rest.map Prod.fst, after.rows.get id = s.rows.get id := by
  obtain ⟨hnodup, -⟩ := horder.snapshot tick hticking
  obtain ⟨hcurrent, -⟩ := List.nodup_cons.mp hnodup
  obtain ⟨rows, departures, -, hothers, heq⟩ := WakeupWorker.fireReturns_eq hticking
  exact ⟨_, heq, rfl, rfl, rfl, fun id hid ↦ hothers id (ne_of_mem_of_not_mem hid hcurrent)⟩

/-- The return of a callback calls `onFired` when the row is still there. -/
theorem callsHold_complete_iff (h : CallsHold s) {after : WakeupWorker} (id : ℕ)
    (hfireCalls : after.fireCalls = s.fireCalls)
    (hfiredCalls : after.firedCalls = ((s.rows.get id).map fun (row : WakeupRow) ↦
      FiredCall.mk id row.status).toList ++ s.firedCalls) :
    CallsHold after ↔ (s.rows.get id).all (fun row ↦ row.status = .pending) = true := by
  rw [Option.all_eq_true]
  constructor
  · intro hcalls row hrow
    rw [decide_eq_true_eq]
    apply hcalls.fired ⟨id, row.status⟩
    rw [hfiredCalls, hrow]
    exact List.mem_cons_self
  · intro hpending
    refine ⟨hfireCalls ▸ h.not_stale, hfireCalls ▸ h.punctual, ?_⟩
    intro call hcall
    rw [hfiredCalls] at hcall
    rcases List.mem_append.mp hcall with hnew | hbefore
    · obtain ⟨row, hrow, rfl⟩ := Option.map_eq_some_iff.mp (Option.mem_toList.mp hnew)
      exact of_decide_eq_true (hpending row hrow)
    · exact h.fired call hbefore

theorem callsHold_of_fireNext {rest : List (ℕ × WakeupRow)} (h : CallsHold (s.fireNext rest)) :
    CallsHold s := by
  match rest with
  | [] => exact ⟨h.not_stale, h.punctual, h.fired⟩
  | (id, row) :: rest =>
    exact ⟨fun call hcall ↦ h.not_stale call (List.mem_cons_of_mem _ hcall),
      fun call hcall ↦ h.punctual call (List.mem_cons_of_mem _ hcall), h.fired⟩

/-- A step makes a wrong call exactly when it does not fire well. -/
theorem callsHold_step_iff (horder : Orderly s) (h : CallsHold s) (event : WakeupEvent) :
    CallsHold (s.step event) ↔ s.firesWell event = true := by
  have hkeep {rows : JsMap ℕ WakeupRow} {departures : List ℕ} :
      CallsHold { s with rows := rows, departures := departures } :=
    ⟨h.not_stale, h.punctual, h.fired⟩
  have htransition (status : WakeupStatus) (id : ℕ) : CallsHold (s.transition status id) := by
    obtain ⟨rows, departures, heq⟩ := s.transition_frame status id
    rw [heq]
    exact hkeep
  cases event with
  | record input =>
    refine ⟨fun _ ↦ rfl, fun _ ↦ ?_⟩
    rw [step, WakeupWorker.record]
    split
    · exact h
    · exact ⟨h.not_stale, h.punctual, h.fired⟩
  | cancel id => exact ⟨fun _ ↦ rfl, fun _ ↦ htransition .cancelled id⟩
  | fireNow id => exact ⟨fun _ ↦ rfl, fun _ ↦ htransition .fired id⟩
  | remove id => exact ⟨fun _ ↦ rfl, fun _ ↦ hkeep⟩
  | advance elapsed => exact ⟨fun _ ↦ rfl, fun _ ↦ ⟨h.not_stale, h.punctual, h.fired⟩⟩
  | runWakeupTick elapsed =>
    cases hticking : s.ticking with
    | some tick =>
      simp only [step, WakeupWorker.runWakeupTick, firesWell, hticking, Option.isSome_some,
        if_true, Bool.true_or, h]
    | none =>
      have hread : CallsHold { s.sweepMissed with now := s.sweepMissed.now + elapsed } := by
        obtain ⟨rows, departures, heq⟩ := s.sweepMissed_frame
        rw [heq]
        exact ⟨h.not_stale, h.punctual, h.fired⟩
      have htick : s.step (.runWakeupTick elapsed) =
          { s.sweepMissed with now := s.sweepMissed.now + elapsed }.fireNext
            (findDuePending { s.sweepMissed with now := s.sweepMissed.now + elapsed }) := by
        rw [step, WakeupWorker.runWakeupTick, hticking]
        rfl
      rw [htick, callsHold_fireNext_iff hread, startsWell_findDuePending_iff]
      simp only [firesWell, hticking, Option.isSome_none, Bool.false_or, List.all_eq_true,
        Prod.forall, JsMap.mem_entries_iff, Bool.or_eq_true, decide_eq_true_eq]
      refine forall₃_congr fun id row hrow ↦ ?_
      rw [or_assoc, ← Nat.not_le, ne_eq, imp_iff_not_or, imp_iff_not_or]
  | fireReturns =>
    cases hticking : s.ticking with
    | none => simp only [step, WakeupWorker.fireReturns, firesWell, hticking, h]
    | some tick =>
      obtain ⟨after, heq, hnow, hfireCalls, hfiredCalls, hrows⟩ := horder.fireReturns_next hticking
      have hcomplete := callsHold_complete_iff h tick.current hfireCalls hfiredCalls
      have hstarts : after.startsWell tick.rest = s.startsWell tick.rest :=
        startsWell_congr hnow hrows
      simp only [step, heq, firesWell, hticking, Bool.and_eq_true, ← hcomplete, ← hstarts]
      constructor
      · intro hcalls
        have hafter := callsHold_of_fireNext hcalls
        exact ⟨hafter, (callsHold_fireNext_iff hafter tick.rest).mp hcalls⟩
      · rintro ⟨hafter, hnext⟩
        exact (callsHold_fireNext_iff hafter tick.rest).mpr hnext
  | fireThrows =>
    cases hticking : s.ticking with
    | none => simp only [step, WakeupWorker.fireThrows, firesWell, hticking, h]
    | some tick =>
      simp only [step, WakeupWorker.fireThrows, firesWell, hticking]
      exact callsHold_fireNext_iff h tick.rest

end

theorem Orderly.initial (now : ℕ) : Orderly { now := now } where
  leaves_once := List.nodup_nil
  completes_once := List.nodup_nil
  known id row hrow := by cases hrow
  left id hid := by cases hid
  completed id hid := by cases hid
  snapshot tick htick := by cases htick

theorem CallsHold.initial (now : ℕ) : CallsHold { now := now } where
  not_stale call hcall := by cases hcall
  punctual call hcall := by cases hcall
  fired call hcall := by cases hcall

/-- In every run a row leaves `pending` once and a callback completes once for each row. -/
theorem leavesPending_once (now : ℕ) (events : List WakeupEvent) :
    (run step { now := now } events).departures.Nodup ∧
      (run step { now := now } events).completions.Nodup := by
  have horder : Orderly (run step { now := now } events) :=
    run_preserves_of_mem events (fun event _ s h ↦ h.step event) (Orderly.initial now)
  exact ⟨horder.leaves_once, horder.completes_once⟩

/-- Wakeups fire once in every state of a run exactly when each tick reads the clock the second time
before a row within the grace is too late, and whenever a callback ends, the next row of the snapshot
is neither cancelled nor missed nor too late, and the row of the callback is pending if it completed
and the row is still there. -/
theorem fires_once_iff (now : ℕ) (events : List WakeupEvent) :
    (∀ before, before <+: events → FiresOnce (run step { now := now } before)) ↔
      Disciplined step (fun s event ↦ s.firesWell event = true) { now := now } events := by
  have hstep (s : WakeupWorker) (event : WakeupEvent) (h : Orderly s ∧ CallsHold s)
      (hallowed : s.firesWell event = true) : Orderly (s.step event) ∧ CallsHold (s.step event) :=
    ⟨h.1.step event, (callsHold_step_iff h.1 h.2 event).mpr hallowed⟩
  have hgood (s : WakeupWorker) (h : Orderly s ∧ CallsHold s) : FiresOnce s :=
    ⟨h.2, h.1.leaves_once, h.1.completes_once⟩
  have hexact (s : WakeupWorker) (event : WakeupEvent) (h : Orderly s ∧ CallsHold s)
      (hafter : FiresOnce (s.step event)) : s.firesWell event = true :=
    (callsHold_step_iff h.1 h.2 event).mp hafter.toCallsHold
  exact disciplined_iff_good hstep hgood hexact ⟨Orderly.initial now, CallsHold.initial now⟩ events

/-- The second of two due rows is cancelled while the callback of the first runs, and its callback
starts all the same; or the first callback takes two minutes, and the second starts that late; or the
first row is cancelled while its own callback runs, and `onFired` is called for it. -/
theorem wakeups_not_fired_once :
    let input : RecordWakeupInput :=
      { chatId := some 1, claudeSessionId := "s", delaySeconds := .finite 0, prompt := "p" }
    ¬FiresOnce (run step { now := 0 }
      [.record input, .record input, .runWakeupTick 0, .cancel 1, .fireReturns]) ∧
    ¬FiresOnce (run step { now := 0 }
      [.record input, .record input, .runWakeupTick 0, .advance 120, .fireReturns]) ∧
    ¬FiresOnce (run step { now := 0 }
      [.record input, .runWakeupTick 0, .cancel 0, .fireReturns]) := by
  intro input
  refine ⟨?_, ?_, ?_⟩
  · intro hgood
    have hstale := hgood.not_stale ⟨1, 0, 0, some .cancelled⟩ (by decide +kernel)
    exact hstale.1 rfl
  · intro hgood
    have hlate := hgood.punctual ⟨1, 0, 120, some .pending⟩ (by decide +kernel)
    exact absurd hlate (by decide)
  · intro hgood
    have hcancelled := hgood.fired ⟨0, .cancelled⟩ (by decide +kernel)
    cases hcancelled

end WakeupWorker

end Flockctl.Wakeups
