import Flockctl.Missions.EventSubscriber
import Flockctl.Transition.Run

/-!
# Triggers are coalesced

The queue of a mission knows of one evaluation in flight. A call of an unsubscribe closure forgets
the queues but not the evaluations, so a trigger that arrives while a forgotten evaluation runs
starts a second one; and a closure that leaves a listener attached drops triggers of that listener.
-/

namespace Flockctl.Missions

open Collections Transition

namespace MissionSubscriber

/-- At most one evaluation in flight and one entry in the map for each mission; and the last trigger
enqueued by a listener that is still attached has been started, or is pending behind one in flight
that will start it. -/
structure Coalesced (s : MissionSubscriber) : Prop where
  one_running : ∀ run evaluation other otherEvaluation,
    s.running.get run = some evaluation → s.running.get other = some otherEvaluation →
    evaluation.missionId = otherEvaluation.missionId → run = other
  one_pending : ∀ missionId, s.queues.keys.count missionId ≤ 1
  evaluated : ∀ missionId last, s.latest.get missionId = some last →
    last.queued.listener ∈ s.listeners →
    last.started = true ∨ (s.queues.get missionId = some ⟨some last.queued⟩ ∧
      ∃ run evaluation, s.running.get run = some evaluation ∧ evaluation.missionId = missionId)

/-- An evaluation of the mission is in flight. -/
def isRunning (s : MissionSubscriber) (missionId : String) : Bool :=
  s.running.entries.any fun entry ↦ entry.2.missionId = missionId

/-- The closure takes the listener off the emitter. -/
def detaches (s : MissionSubscriber) (listener : ℕ) : Unsubscribe → Bool
  | .own own => own = listener && s.installed = some own
  | .found current => current = listener

/-- No event starts an evaluation beside one whose queue was forgotten, and no closure drops a
trigger of a listener it leaves attached. -/
def coalesces (s : MissionSubscriber) : SubscriberEvent → Bool
  | .emit _ resolved active =>
    match resolved with
    | none => true
    | some missionId =>
      !active || s.listeners.isEmpty || s.queues.has missionId || !s.isRunning missionId
  | .unsubscribe number =>
    match s.returned[number]? with
    | none => true
    | some closure => s.queues.entries.all fun entry ↦
        match entry.2.pending with
        | none => true
        | some queued => !s.listeners.contains queued.listener ||
            s.detaches queued.listener closure
  | .finish _ | .subscribe => true

/-- What the subscriber keeps: every entry has its evaluation in flight, and a trigger that waits
for its start is the pending one. -/
structure Orderly (s : MissionSubscriber) : Prop where
  one_running : ∀ run evaluation other otherEvaluation,
    s.running.get run = some evaluation → s.running.get other = some otherEvaluation →
    evaluation.missionId = otherEvaluation.missionId → run = other
  fresh_run : ∀ run evaluation, s.running.get run = some evaluation → run < s.nextRun
  owned : ∀ missionId, s.queues.has missionId = true → s.isRunning missionId = true
  pending : ∀ missionId queued, s.queues.get missionId = some ⟨some queued⟩ →
    s.latest.get missionId = some ⟨queued, false⟩
  waiting : ∀ missionId queued, s.latest.get missionId = some ⟨queued, false⟩ →
    queued.listener ∈ s.listeners → s.queues.get missionId = some ⟨some queued⟩
  fresh_listener : ∀ listener ∈ s.listeners, listener < s.nextListener
  enqueued : ∀ missionId last, s.latest.get missionId = some last →
    last.queued.listener < s.nextListener

section

variable {s : MissionSubscriber}

theorem isRunning_iff (missionId : String) : s.isRunning missionId = true ↔
    ∃ run evaluation, s.running.get run = some evaluation ∧ evaluation.missionId = missionId := by
  simp only [isRunning, List.any_eq_true, Prod.exists, decide_eq_true_eq, JsMap.mem_entries_iff]

theorem Orderly.coalesced (h : Orderly s) : Coalesced s where
  one_running := h.one_running
  one_pending missionId := List.nodup_iff_count_le_one.mp s.queues.nodup missionId
  evaluated missionId last hlast hattached := by
    obtain ⟨queued, started⟩ := last
    cases started with
    | true => exact .inl rfl
    | false =>
      have hqueue := h.waiting missionId queued hlast hattached
      have hhas : s.queues.has missionId = true :=
        (JsMap.has_eq_true_iff _ _).mpr ⟨_, hqueue⟩
      exact .inr ⟨hqueue, (isRunning_iff missionId).mp (h.owned missionId hhas)⟩

theorem Orderly.initial : Orderly {} where
  one_running run evaluation other otherEvaluation hrun := by cases hrun
  fresh_run run evaluation hrun := by cases hrun
  owned missionId hqueue := by cases hqueue
  pending missionId queued hqueue := by cases hqueue
  waiting missionId queued hlast := by cases hlast
  fresh_listener listener hlistener := by cases hlistener
  enqueued missionId last hlast := by cases hlast

theorem not_isRunning_iff (missionId : String) : s.isRunning missionId = false ↔
    ∀ run evaluation, s.running.get run = some evaluation → evaluation.missionId ≠ missionId := by
  rw [Bool.eq_false_iff, Ne, isRunning_iff]
  constructor
  · exact fun hnone run evaluation hrun hmission ↦ hnone ⟨run, evaluation, hrun, hmission⟩
  · intro hnone hsome
    obtain ⟨run, evaluation, hrun, hmission⟩ := hsome
    exact hnone run evaluation hrun hmission

/-! ## All missions but one -/

/-- The state is orderly but for the queue entry and the last trigger of a mission. -/
structure OrderlyBut (s : MissionSubscriber) (missionId : String) : Prop where
  one_running : ∀ run evaluation other otherEvaluation,
    s.running.get run = some evaluation → s.running.get other = some otherEvaluation →
    evaluation.missionId = otherEvaluation.missionId → run = other
  fresh_run : ∀ run evaluation, s.running.get run = some evaluation → run < s.nextRun
  owned : ∀ other ≠ missionId, s.queues.has other = true → s.isRunning other = true
  pending : ∀ other ≠ missionId, ∀ queued, s.queues.get other = some ⟨some queued⟩ →
    s.latest.get other = some ⟨queued, false⟩
  waiting : ∀ other ≠ missionId, ∀ queued, s.latest.get other = some ⟨queued, false⟩ →
    queued.listener ∈ s.listeners → s.queues.get other = some ⟨some queued⟩
  fresh_listener : ∀ listener ∈ s.listeners, listener < s.nextListener
  enqueued : ∀ other last, s.latest.get other = some last → last.queued.listener < s.nextListener

theorem Orderly.but (h : Orderly s) (missionId : String) : OrderlyBut s missionId where
  one_running := h.one_running
  fresh_run := h.fresh_run
  owned other _ := h.owned other
  pending other _ := h.pending other
  waiting other _ := h.waiting other
  fresh_listener := h.fresh_listener
  enqueued := h.enqueued

theorem OrderlyBut.orderly {missionId : String} (h : OrderlyBut s missionId)
    (howned : s.queues.has missionId = true → s.isRunning missionId = true)
    (hpending : ∀ queued, s.queues.get missionId = some ⟨some queued⟩ →
      s.latest.get missionId = some ⟨queued, false⟩)
    (hwaiting : ∀ queued, s.latest.get missionId = some ⟨queued, false⟩ →
      queued.listener ∈ s.listeners → s.queues.get missionId = some ⟨some queued⟩) :
    Orderly s where
  one_running := h.one_running
  fresh_run := h.fresh_run
  owned other := by
    by_cases hother : other = missionId
    · exact hother ▸ howned
    · exact h.owned other hother
  pending other := by
    by_cases hother : other = missionId
    · exact hother ▸ hpending
    · exact h.pending other hother
  waiting other := by
    by_cases hother : other = missionId
    · exact hother ▸ hwaiting
    · exact h.waiting other hother
  fresh_listener := h.fresh_listener
  enqueued := h.enqueued

/-- The entry and the last trigger of the mission change. -/
theorem OrderlyBut.change {missionId : String} (h : OrderlyBut s missionId)
    {queues : JsMap String (MissionQueueState QueuedTrigger)} {latest : JsMap String LatestTrigger}
    {serial : ℕ}
    (hqueues : ∀ other ≠ missionId, queues.get other = s.queues.get other)
    (hlatest : ∀ other ≠ missionId, latest.get other = s.latest.get other)
    (henqueued : ∀ last, latest.get missionId = some last →
      last.queued.listener < s.nextListener) :
    OrderlyBut { s with queues := queues, latest := latest, nextSerial := serial } missionId where
  one_running := h.one_running
  fresh_run := h.fresh_run
  owned other hother hhas := by
    rw [JsMap.has, hqueues other hother] at hhas
    exact h.owned other hother hhas
  pending other hother queued hqueue := by
    rw [hqueues other hother] at hqueue
    exact (hlatest other hother).trans (h.pending other hother queued hqueue)
  waiting other hother queued hlast hattached := by
    rw [hlatest other hother] at hlast
    exact (hqueues other hother).trans (h.waiting other hother queued hlast hattached)
  fresh_listener := h.fresh_listener
  enqueued other last hlast := by
    by_cases hother : other = missionId
    · exact henqueued last (hother ▸ hlast)
    · rw [hlatest other hother] at hlast
      exact h.enqueued other last hlast

/-! ## A start -/

theorem isRunning_runOne (missionId : String) (queued : QueuedTrigger) {other : String}
    (hfresh : ∀ run evaluation, s.running.get run = some evaluation → run < s.nextRun)
    (hother : other = missionId ∨ s.isRunning other = true) :
    (s.runOne missionId queued).isRunning other = true := by
  rw [isRunning_iff]
  rcases hother with rfl | hrunning
  · exact ⟨s.nextRun, ⟨other, queued⟩, JsMap.get_set_self _ _ _, rfl⟩
  · obtain ⟨run, evaluation, hrun, hmission⟩ := (isRunning_iff other).mp hrunning
    have hne : run ≠ s.nextRun := Nat.ne_of_lt (hfresh run evaluation hrun)
    exact ⟨run, evaluation, (JsMap.get_set_of_ne _ _ hne).trans hrun, hmission⟩

theorem latest_runOne_self {missionId : String} {queued : QueuedTrigger}
    (hlast : s.latest.get missionId = some ⟨queued, false⟩) :
    (s.runOne missionId queued).latest.get missionId = some ⟨queued, true⟩ := by
  have hmodified : (s.runOne missionId queued).latest.get missionId = _ :=
    JsMap.get_modify _ _ _ _
  rw [hmodified, if_pos rfl, hlast, Option.map_some, if_pos rfl]

theorem latest_runOne_of_ne {missionId other : String} (queued : QueuedTrigger)
    (hother : other ≠ missionId) :
    (s.runOne missionId queued).latest.get other = s.latest.get other := by
  have hmodified : (s.runOne missionId queued).latest.get other = _ := JsMap.get_modify _ _ _ _
  rw [hmodified, if_neg hother]

/-- The last trigger of a mission without an evaluation in flight starts. -/
theorem OrderlyBut.runOne {missionId : String} {queued : QueuedTrigger}
    (h : OrderlyBut s missionId) (hidle : s.isRunning missionId = false)
    (hentry : s.queues.get missionId = some ⟨none⟩)
    (hlast : s.latest.get missionId = some ⟨queued, false⟩) :
    Orderly (s.runOne missionId queued) := by
  have hrunning (other : String) (hother : other ≠ missionId) (hhas : s.queues.has other = true) :
      (s.runOne missionId queued).isRunning other = true :=
    isRunning_runOne missionId queued h.fresh_run (.inr (h.owned other hother hhas))
  have hbut : OrderlyBut (s.runOne missionId queued) missionId := by
    refine ⟨?_, ?_, hrunning, ?_, ?_, h.fresh_listener, ?_⟩
    · intro run evaluation other otherEvaluation hrun hother hsame
      have hnone := (not_isRunning_iff missionId).mp hidle
      change (s.running.set s.nextRun ⟨missionId, queued⟩).get run = _ at hrun
      change (s.running.set s.nextRun ⟨missionId, queued⟩).get other = _ at hother
      rw [JsMap.get_set] at hrun hother
      split_ifs at hrun hother with hnew hotherNew
      · rw [hnew, hotherNew]
      · cases hrun
        exact absurd hsame.symm (hnone other otherEvaluation hother)
      · cases hother
        exact absurd hsame (hnone run evaluation hrun)
      · exact h.one_running run evaluation other otherEvaluation hrun hother hsame
    · intro run evaluation hrun
      change (s.running.set s.nextRun ⟨missionId, queued⟩).get run = _ at hrun
      rw [JsMap.get_set] at hrun
      split_ifs at hrun with hnew
      · exact hnew ▸ Nat.lt_succ_self _
      · exact Nat.lt_succ_of_lt (h.fresh_run run evaluation hrun)
    · intro other hother waiting hqueue
      rw [latest_runOne_of_ne queued hother]
      exact h.pending other hother waiting hqueue
    · intro other hother waiting hlatest hattached
      rw [latest_runOne_of_ne queued hother] at hlatest
      exact h.waiting other hother waiting hlatest hattached
    · intro other last hlatest
      by_cases hother : other = missionId
      · rw [hother, latest_runOne_self hlast] at hlatest
        cases hlatest
        exact h.enqueued missionId ⟨queued, false⟩ hlast
      · rw [latest_runOne_of_ne queued hother] at hlatest
        exact h.enqueued other last hlatest
  apply hbut.orderly
  · exact fun _ ↦ isRunning_runOne missionId queued h.fresh_run (.inl rfl)
  · intro waiting hqueue
    change s.queues.get missionId = _ at hqueue
    rw [hentry] at hqueue
    cases hqueue
  · intro waiting hlatest
    rw [latest_runOne_self hlast] at hlatest
    cases hlatest

/-! ## The listener -/

theorem enqueue_of_has (listener : ℕ) {missionId : String} (trigger : MissionTrigger)
    (hhas : s.queues.has missionId = true) : s.enqueue listener missionId trigger =
      { s with
        queues := s.queues.set missionId ⟨some ⟨s.nextSerial, listener, trigger⟩⟩
        nextSerial := s.nextSerial + 1
        latest := s.latest.set missionId ⟨⟨s.nextSerial, listener, trigger⟩, false⟩ } := by
  obtain ⟨entry, hentry⟩ := (JsMap.has_eq_true_iff _ _).mp hhas
  simp only [enqueue, hentry, enqueueTrigger]

theorem enqueue_of_not_has (listener : ℕ) {missionId : String} (trigger : MissionTrigger)
    (hhas : s.queues.has missionId = false) : s.enqueue listener missionId trigger =
      { s with
        queues := s.queues.set missionId ⟨none⟩
        nextSerial := s.nextSerial + 1
        latest := s.latest.set missionId ⟨⟨s.nextSerial, listener, trigger⟩, false⟩ }.runOne
          missionId ⟨s.nextSerial, listener, trigger⟩ := by
  have hentry : s.queues.get missionId = none := by
    simpa [JsMap.has] using hhas
  simp only [enqueue, hentry, enqueueTrigger]

theorem has_enqueue (listener : ℕ) (missionId : String) (trigger : MissionTrigger) :
    (s.enqueue listener missionId trigger).queues.has missionId = true := by
  rw [JsMap.has_eq_true_iff]
  cases hhas : s.queues.has missionId with
  | true =>
    rw [enqueue_of_has listener trigger hhas]
    exact ⟨_, JsMap.get_set_self _ _ _⟩
  | false =>
    rw [enqueue_of_not_has listener trigger hhas]
    exact ⟨_, JsMap.get_set_self _ _ _⟩

theorem listeners_enqueue (listener : ℕ) (missionId : String) (trigger : MissionTrigger) :
    (s.enqueue listener missionId trigger).listeners = s.listeners ∧
      (s.enqueue listener missionId trigger).nextListener = s.nextListener := by
  cases hhas : s.queues.has missionId with
  | true =>
    rw [enqueue_of_has listener trigger hhas]
    exact ⟨rfl, rfl⟩
  | false =>
    rw [enqueue_of_not_has listener trigger hhas]
    exact ⟨rfl, rfl⟩

theorem Orderly.enqueue (h : Orderly s) {listener : ℕ} (hlistener : listener ∈ s.listeners)
    (missionId : String) (trigger : MissionTrigger)
    (hfree : s.queues.has missionId = true ∨ s.isRunning missionId = false) :
    Orderly (s.enqueue listener missionId trigger) := by
  have hchange (entry : MissionQueueState QueuedTrigger) :
      OrderlyBut
        { s with
          queues := s.queues.set missionId entry
          nextSerial := s.nextSerial + 1
          latest := s.latest.set missionId ⟨⟨s.nextSerial, listener, trigger⟩, false⟩ }
        missionId := by
    apply (h.but missionId).change
    · exact fun other hother ↦ JsMap.get_set_of_ne _ _ hother
    · exact fun other hother ↦ JsMap.get_set_of_ne _ _ hother
    · intro last hlast
      rw [JsMap.get_set_self] at hlast
      cases hlast
      exact h.fresh_listener listener hlistener
  cases hhas : s.queues.has missionId with
  | true =>
    rw [enqueue_of_has listener trigger hhas]
    apply (hchange _).orderly
    · exact fun _ ↦ h.owned missionId hhas
    · intro queued hqueue
      rw [JsMap.get_set_self] at hqueue ⊢
      cases hqueue
      rfl
    · intro queued hlast _
      rw [JsMap.get_set_self] at hlast ⊢
      cases hlast
      rfl
  | false =>
    have hidle : s.isRunning missionId = false := by
      rcases hfree with hentry | hidle
      · rw [hhas] at hentry
        cases hentry
      · exact hidle
    rw [enqueue_of_not_has listener trigger hhas]
    exact (hchange ⟨none⟩).runOne hidle (JsMap.get_set_self _ _ _) (JsMap.get_set_self _ _ _)

/-- The listeners behind the first one find the entry it made. -/
theorem Orderly.enqueueAll (h : Orderly s) (missionId : String) (trigger : MissionTrigger)
    (listeners : List ℕ) (hlisteners : ∀ listener ∈ listeners, listener ∈ s.listeners)
    (hfree : s.queues.has missionId = true ∨ s.isRunning missionId = false) :
    Orderly (listeners.foldl
      (fun subscriber listener ↦ subscriber.enqueue listener missionId trigger) s) := by
  induction listeners generalizing s with
  | nil => exact h
  | cons listener rest ih =>
    rw [List.foldl_cons]
    apply ih (h.enqueue (hlisteners listener List.mem_cons_self) missionId trigger hfree)
    · intro other hother
      rw [(listeners_enqueue listener missionId trigger).1]
      exact hlisteners other (List.mem_cons_of_mem listener hother)
    · exact .inl (has_enqueue listener missionId trigger)

theorem Orderly.emit (h : Orderly s) (event : TaskTerminalEvent) (resolved : Option String)
    (active : Bool) (hallowed : s.coalesces (.emit event resolved active) = true) :
    Orderly (s.emit event resolved active) := by
  unfold MissionSubscriber.emit
  cases resolved with
  | none => exact h
  | some missionId =>
    cases active with
    | false => exact h
    | true =>
      simp only [coalesces, Bool.not_true, Bool.false_or, Bool.or_eq_true, List.isEmpty_iff,
        Bool.not_eq_true'] at hallowed
      rcases hallowed with (hnone | hhas) | hidle
      · simp only [if_true, hnone, List.foldl_nil]
        exact h
      · exact h.enqueueAll missionId _ s.listeners (fun _ hlistener ↦ hlistener) (.inl hhas)
      · exact h.enqueueAll missionId _ s.listeners (fun _ hlistener ↦ hlistener) (.inr hidle)

/-! ## The end of an evaluation -/

theorem finish_cases {run : ℕ} {evaluation : Evaluation}
    (hrun : s.running.get run = some evaluation) :
    ((∀ waiting, s.queues.get evaluation.missionId ≠ some ⟨some waiting⟩) ∧ s.finish run =
      { s with
        running := s.running.delete run
        queues := s.queues.delete evaluation.missionId }) ∨
    (∃ next, s.queues.get evaluation.missionId = some ⟨some next⟩ ∧ s.finish run =
      { s with
        running := s.running.delete run
        queues := s.queues.set evaluation.missionId ⟨none⟩ }.runOne evaluation.missionId next) := by
  unfold finish
  rw [hrun]
  dsimp only
  match hentry : s.queues.get evaluation.missionId with
  | none => exact .inl ⟨fun waiting hwaiting ↦ (by cases hwaiting), rfl⟩
  | some ⟨none⟩ => exact .inl ⟨fun waiting hwaiting ↦ (by cases hwaiting), rfl⟩
  | some ⟨some next⟩ => exact .inr ⟨next, rfl, rfl⟩

/-- Without an evaluation of its mission the state is orderly but for that mission, which has none
in flight any more. -/
theorem Orderly.endRun (h : Orderly s) {run : ℕ} {evaluation : Evaluation}
    (hrun : s.running.get run = some evaluation) :
    OrderlyBut { s with running := s.running.delete run } evaluation.missionId ∧
      isRunning { s with running := s.running.delete run } evaluation.missionId = false := by
  have hended {other : ℕ} {otherEvaluation : Evaluation}
      (hother : (s.running.delete run).get other = some otherEvaluation) :
      other ≠ run ∧ s.running.get other = some otherEvaluation :=
    JsMap.get_delete_eq_some_iff.mp hother
  constructor
  · refine ⟨?_, ?_, ?_, fun other _ ↦ h.pending other, fun other _ ↦ h.waiting other,
      h.fresh_listener, h.enqueued⟩
    · intro first firstEvaluation other otherEvaluation hfirst hother
      exact h.one_running first firstEvaluation other otherEvaluation (hended hfirst).2
        (hended hother).2
    · exact fun other otherEvaluation hother ↦ h.fresh_run _ _ (hended hother).2
    · intro other hother hhas
      obtain ⟨otherRun, otherEvaluation, hget, hmission⟩ :=
        (isRunning_iff other).mp (h.owned other hhas)
      refine (isRunning_iff other).mpr ⟨otherRun, otherEvaluation, ?_, hmission⟩
      refine JsMap.get_delete_eq_some_iff.mpr ⟨?_, hget⟩
      intro hsame
      rw [hsame, hrun] at hget
      cases hget
      exact hother hmission.symm
  · rw [not_isRunning_iff]
    intro other otherEvaluation hother hsame
    exact (hended hother).1
      (h.one_running other otherEvaluation run evaluation (hended hother).2 hrun hsame)

theorem Orderly.finish (h : Orderly s) (run : ℕ) : Orderly (s.finish run) := by
  cases hrun : s.running.get run with
  | none =>
    rw [MissionSubscriber.finish, hrun]
    exact h
  | some evaluation =>
    obtain ⟨hended, hidle⟩ := h.endRun hrun
    have hchange {queues : JsMap String (MissionQueueState QueuedTrigger)}
        (hqueues : ∀ other ≠ evaluation.missionId, queues.get other = s.queues.get other) :
        OrderlyBut { s with running := s.running.delete run, queues := queues }
          evaluation.missionId :=
      hended.change hqueues (fun _ _ ↦ rfl) fun last hlast ↦ h.enqueued _ last hlast
    rcases finish_cases hrun with ⟨hnone, heq⟩ | ⟨next, hentry, heq⟩
    · rw [heq]
      apply (hchange fun other hother ↦ JsMap.get_delete_of_ne _ hother).orderly
      · intro hhas
        rw [JsMap.has, JsMap.get_delete_self] at hhas
        cases hhas
      · intro queued hqueue
        rw [JsMap.get_delete_self] at hqueue
        cases hqueue
      · intro queued hlast hattached
        exact absurd (h.waiting _ queued hlast hattached) (hnone queued)
    · rw [heq]
      exact (hchange fun other hother ↦ JsMap.get_set_of_ne _ _ hother).runOne hidle
        (JsMap.get_set_self _ _ _) (h.pending _ next hentry)

/-! ## Subscribing and unsubscribing -/

theorem Orderly.subscribe (h : Orderly s) : Orderly s.subscribeMissionEvents := by
  unfold subscribeMissionEvents
  split
  · exact ⟨h.one_running, h.fresh_run, h.owned, h.pending, h.waiting, h.fresh_listener, h.enqueued⟩
  · refine ⟨h.one_running, h.fresh_run, h.owned, h.pending, ?_, ?_, ?_⟩
    · intro missionId queued hlast hattached
      apply h.waiting missionId queued hlast
      rcases List.mem_append.mp hattached with hbefore | hnew
      · exact hbefore
      · have hlistener := h.enqueued missionId _ hlast
        rw [List.mem_singleton.mp hnew] at hlistener
        exact absurd hlistener (Nat.lt_irrefl _)
    · intro listener hlistener
      rcases List.mem_append.mp hlistener with hbefore | hnew
      · exact Nat.lt_succ_of_lt (h.fresh_listener listener hbefore)
      · rw [List.mem_singleton.mp hnew]
        exact Nat.lt_succ_self _
    · exact fun missionId last hlast ↦ Nat.lt_succ_of_lt (h.enqueued missionId last hlast)

theorem unsubscribe_eq (closure : Unsubscribe) :
    (s.unsubscribe closure).queues = JsMap.empty ∧
    (s.unsubscribe closure).running = s.running ∧ (s.unsubscribe closure).nextRun = s.nextRun ∧
    (s.unsubscribe closure).latest = s.latest ∧
    (s.unsubscribe closure).nextListener = s.nextListener := by
  cases closure with
  | own listener =>
    rw [unsubscribe]
    split_ifs <;> exact ⟨rfl, rfl, rfl, rfl, rfl⟩
  | found listener => exact ⟨rfl, rfl, rfl, rfl, rfl⟩

/-- The listeners a closure leaves attached. -/
theorem mem_listeners_unsubscribe (closure : Unsubscribe) (listener : ℕ) :
    listener ∈ (s.unsubscribe closure).listeners ↔
      listener ∈ s.listeners ∧ s.detaches listener closure = false := by
  cases closure with
  | own own =>
    rw [unsubscribe]
    by_cases hinstalled : s.installed = some own
    · rw [if_pos hinstalled]
      change listener ∈ s.listeners.filter (· ≠ own) ↔ _
      simp only [List.mem_filter, detaches, hinstalled, decide_true, Bool.and_true,
        decide_eq_true_eq, decide_eq_false_iff_not]
      exact and_congr_right fun _ ↦ ne_comm
    · rw [if_neg hinstalled]
      simp [detaches, hinstalled]
  | found current =>
    change listener ∈ s.listeners.filter (· ≠ current) ↔ _
    simp only [List.mem_filter, detaches, decide_eq_true_eq, decide_eq_false_iff_not]
    exact and_congr_right fun _ ↦ ne_comm

theorem Orderly.unsubscribe (h : Orderly s) (closure : Unsubscribe)
    (hdropped : ∀ missionId queued, s.queues.get missionId = some ⟨some queued⟩ →
      queued.listener ∉ (s.unsubscribe closure).listeners) :
    Orderly (s.unsubscribe closure) := by
  obtain ⟨hqueues, hrunning, hnextRun, hlatest, hnextListener⟩ := unsubscribe_eq (s := s) closure
  refine ⟨?_, ?_, ?_, ?_, ?_, ?_, ?_⟩
  · rw [hrunning]
    exact h.one_running
  · rw [hrunning, hnextRun]
    exact h.fresh_run
  · intro missionId hhas
    rw [hqueues] at hhas
    cases hhas
  · intro missionId queued hqueue
    rw [hqueues] at hqueue
    cases hqueue
  · intro missionId queued hlast hattached
    rw [hlatest] at hlast
    have hbefore := ((mem_listeners_unsubscribe closure _).mp hattached).1
    exact absurd hattached (hdropped missionId queued (h.waiting missionId queued hlast hbefore))
  · intro listener hlistener
    rw [hnextListener]
    exact h.fresh_listener listener ((mem_listeners_unsubscribe closure _).mp hlistener).1
  · rw [hlatest, hnextListener]
    exact h.enqueued

/-- Every pending trigger is of a listener that is detached after the closure. -/
theorem coalesces_unsubscribe_iff {number : ℕ} {closure : Unsubscribe}
    (hclosure : s.returned[number]? = some closure) :
    s.coalesces (.unsubscribe number) = true ↔
      ∀ missionId queued, s.queues.get missionId = some ⟨some queued⟩ →
        queued.listener ∉ (s.unsubscribe closure).listeners := by
  simp only [coalesces, hclosure, List.all_eq_true, Prod.forall, JsMap.mem_entries_iff,
    mem_listeners_unsubscribe]
  constructor
  · intro hall missionId queued hqueue hkept
    have hentry := hall missionId ⟨some queued⟩ hqueue
    simp [hkept.1, hkept.2] at hentry
  · intro hall missionId entry hentry
    match entry, hentry with
    | ⟨none⟩, _ => rfl
    | ⟨some queued⟩, hqueue =>
      have hdetached := hall missionId queued hqueue
      simp only [not_and, Bool.not_eq_false] at hdetached
      simpa [imp_iff_not_or] using hdetached

/-! ## What goes wrong otherwise -/

/-- Behind an entry the other listeners start nothing. -/
theorem running_enqueueAll (missionId : String) (trigger : MissionTrigger) (listeners : List ℕ)
    (hhas : s.queues.has missionId = true) :
    (listeners.foldl (fun subscriber listener ↦ subscriber.enqueue listener missionId trigger)
      s).running = s.running := by
  induction listeners generalizing s with
  | nil => rfl
  | cons listener rest ih =>
    rw [List.foldl_cons, ih (has_enqueue listener missionId trigger),
      enqueue_of_has listener trigger hhas]

/-- A trigger that finds no entry beside an evaluation in flight starts a second one. -/
theorem second_run {event : TaskTerminalEvent} {missionId : String}
    (hlisteners : s.listeners ≠ []) (hhas : s.queues.has missionId = false)
    (hfresh : ∀ run evaluation, s.running.get run = some evaluation → run < s.nextRun)
    (hrunning : s.isRunning missionId = true) : ¬Coalesced (s.emit event (some missionId) true) := by
  intro hcoalesced
  obtain ⟨run, evaluation, hrun, hmission⟩ := (isRunning_iff missionId).mp hrunning
  obtain ⟨listener, rest, hlist⟩ := List.exists_cons_of_ne_nil hlisteners
  have hafter : (s.emit event (some missionId) true).running =
      s.running.set s.nextRun
        ⟨missionId, ⟨s.nextSerial, listener, buildTrigger event⟩⟩ := by
    have hall : s.emit event (some missionId) true = s.listeners.foldl
        (fun subscriber listener ↦ subscriber.enqueue listener missionId (buildTrigger event)) s :=
      rfl
    rw [hall, hlist, List.foldl_cons, running_enqueueAll _ _ _ (has_enqueue _ _ _),
      enqueue_of_not_has listener _ hhas]
    rfl
  have hne : run ≠ s.nextRun := Nat.ne_of_lt (hfresh run evaluation hrun)
  have hfirst : (s.emit event (some missionId) true).running.get run = some evaluation := by
    rw [hafter, JsMap.get_set_of_ne _ _ hne, hrun]
  have hsecond : (s.emit event (some missionId) true).running.get s.nextRun =
      some ⟨missionId, ⟨s.nextSerial, listener, buildTrigger event⟩⟩ := by
    rw [hafter, JsMap.get_set_self]
  exact hne (hcoalesced.one_running run evaluation s.nextRun _ hfirst hsecond hmission)

theorem Orderly.coalesces (h : Orderly s) (event : SubscriberEvent)
    (hgood : Coalesced (s.step event)) : s.coalesces event = true := by
  cases event with
  | finish run => rfl
  | subscribe => rfl
  | emit event resolved active =>
    cases resolved with
    | none => rfl
    | some missionId =>
      cases active with
      | false => rfl
      | true =>
        simp only [MissionSubscriber.coalesces, Bool.not_true, Bool.false_or, Bool.or_eq_true,
          List.isEmpty_iff, Bool.not_eq_true']
        by_contra hbad
        simp only [not_or, Bool.not_eq_true, Bool.not_eq_false] at hbad
        exact second_run hbad.1.1 hbad.1.2 h.fresh_run hbad.2 hgood
  | unsubscribe number =>
    cases hclosure : s.returned[number]? with
    | none => simp only [MissionSubscriber.coalesces, hclosure]
    | some closure =>
      rw [coalesces_unsubscribe_iff hclosure]
      intro missionId queued hqueue hattached
      have hstep : s.step (.unsubscribe number) = s.unsubscribe closure := by
        simp only [step, hclosure]
      obtain ⟨hqueues, -, -, hlatest, -⟩ := unsubscribe_eq (s := s) closure
      rw [hstep] at hgood
      have hlast : (s.unsubscribe closure).latest.get missionId = some ⟨queued, false⟩ := by
        rw [hlatest]
        exact h.pending missionId queued hqueue
      rcases hgood.evaluated missionId _ hlast hattached with hstarted | ⟨hentry, -⟩
      · cases hstarted
      · rw [hqueues] at hentry
        cases hentry

end

/-- Every state of a run of the subscriber has its triggers coalesced exactly when no event starts
an evaluation beside one in flight whose queue was forgotten, and no closure that drops a trigger
leaves the listener that enqueued it attached. -/
theorem coalesced_iff (events : List SubscriberEvent) :
    (∀ before, before <+: events → Coalesced (run step {} before)) ↔
      Disciplined step (fun s event ↦ s.coalesces event = true) {} events := by
  have hstep (s : MissionSubscriber) (event : SubscriberEvent) (h : Orderly s)
      (hallowed : s.coalesces event = true) : Orderly (s.step event) := by
    cases event with
    | emit event resolved active => exact h.emit event resolved active hallowed
    | finish run => exact h.finish run
    | subscribe => exact h.subscribe
    | unsubscribe number =>
      cases hclosure : s.returned[number]? with
      | none =>
        simp only [step, hclosure]
        exact h
      | some closure =>
        simp only [step, hclosure]
        exact h.unsubscribe closure ((coalesces_unsubscribe_iff hclosure).mp hallowed)
  exact disciplined_iff_good hstep (fun s h ↦ h.coalesced) (fun s event h ↦ h.coalesces event)
    Orderly.initial events

/-- Unsubscribing while an evaluation is in flight and subscribing again lets the next event start
a second one; and the closure of a listener that is gone drops the trigger the next one waits
with. -/
theorem triggers_not_coalesced :
    ¬Coalesced (run step {}
      [.subscribe, .emit { taskId := 1, status := .task .failed } (some "m1") true,
        .unsubscribe 0, .subscribe,
        .emit { taskId := 2, status := .task .failed } (some "m1") true]) ∧
    ¬Coalesced (run step {}
      [.subscribe, .unsubscribe 0, .subscribe,
        .emit { taskId := 1, status := .task .failed } (some "m1") true,
        .emit { taskId := 2, status := .task .failed } (some "m1") true, .unsubscribe 0]) := by
  constructor
  · intro hcoalesced
    have hsame := hcoalesced.one_running 0
      ⟨"m1", ⟨0, 0, buildTrigger { taskId := 1, status := .task .failed }⟩⟩ 1
      ⟨"m1", ⟨1, 1, buildTrigger { taskId := 2, status := .task .failed }⟩⟩ rfl rfl rfl
    cases hsame
  · intro hcoalesced
    have hlast := hcoalesced.evaluated "m1"
      ⟨⟨1, 1, buildTrigger { taskId := 2, status := .task .failed }⟩, false⟩ rfl
      (List.mem_singleton.mpr rfl)
    rcases hlast with hstarted | ⟨hentry, -⟩
    · cases hstarted
    · cases hentry

end MissionSubscriber

end Flockctl.Missions
