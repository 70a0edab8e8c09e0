import Flockctl.Chats.StreamFlushes

/-!
# A streamed turn is saved and delivered whole

In every order of the session's events, the ends of the writes and the steps of the loop, the
assistant rows of a turn are together the text that was streamed, each tool row stands between the
text before its call and the text after it, and the events reach a client that stays connected in
their order, each once. The loop awaits its waker only while there is nothing to write and the run
goes on, so it ends once the run has.
-/

namespace Flockctl.Chats.Streaming

open Transition

variable {Call Result : Type}

/-! ## The queue -/

/-- The event of a write that has not ended. -/
def LoopPoint.inFlight : LoopPoint Call Result → List (SseEvent Call Result)
  | .writing event => [event]
  | .lastWriting event => [event]
  | _ => []

/-- What holds where the loop is: only the loop that awaits the waker has set it, and then the run
goes on and nothing is left to write. -/
def LoopPoint.Fits (resolveWait clientDisconnected runFinished : Bool) (drained : Prop) :
    LoopPoint Call Result → Prop
  | .writing _ | .woken => resolveWait = false ∧ clientDisconnected = false
  | .waiting =>
    resolveWait = true ∧ clientDisconnected = false ∧ runFinished = false ∧ drained
  | .awaitingRun =>
    resolveWait = false ∧ (clientDisconnected = false → runFinished = true ∧ drained)
  | .lastWriting _ => False
  | .finishing | .ended =>
    resolveWait = false ∧ runFinished = true ∧ (clientDisconnected = false → drained)

namespace LoopPoint.Fits

variable {point : LoopPoint Call Result} {disconnected finished : Bool} {drained drained' : Prop}

theorem waiting (h : point.Fits true disconnected finished drained) : point = .waiting := by
  cases point with
  | waiting => rfl
  | writing | woken | awaitingRun | finishing | ended => cases h.1
  | lastWriting => exact h.elim

/-- As long as the run goes on, only the loop that awaits the waker relies on an empty queue. -/
theorem push (h : point.Fits false disconnected false drained) :
    point.Fits false disconnected false drained' := by
  cases point with
  | writing | woken => exact h
  | waiting => cases h.1
  | awaitingRun =>
    refine ⟨rfl, fun hconnected ↦ ?_⟩
    cases (h.2 hconnected).1
  | lastWriting => exact h
  | finishing | ended => cases h.2.1

theorem settle (h : point.Fits false disconnected finished drained) :
    point.Fits false disconnected true drained := by
  cases point with
  | writing | woken => exact h
  | waiting => cases h.1
  | awaitingRun => exact ⟨rfl, fun hconnected ↦ ⟨rfl, (h.2 hconnected).2⟩⟩
  | lastWriting => exact h
  | finishing | ended => exact ⟨rfl, rfl, h.2.2⟩

end LoopPoint.Fits

/-- What holds where the loop of the turn is. -/
def Turn.Placed (s : Turn Call Result) : Prop :=
  s.point.Fits s.resolveWait s.clientDisconnected s.runFinished (s.head = s.eventQueue.length)

/-- The events in the order in which the session has emitted them are what has been written, what is
being written and what is left in the queue. -/
structure Queued (sent : List (SseEvent Call Result)) (s : Turn Call Result) : Prop where
  placed : s.Placed
  bounded : s.head ≤ s.eventQueue.length
  order : s.clientDisconnected = false →
    s.written ++ s.point.inFlight ++ s.eventQueue.drop s.head = sent
  written : s.written <+: sent

namespace Queued

open Turn

variable {sent : List (SseEvent Call Result)} {s t : Turn Call Result}

theorem initial : Queued ([] : List (SseEvent Call Result)) {} where
  placed := ⟨rfl, rfl⟩
  bounded := Nat.le_refl 0
  order _ := rfl
  written := List.prefix_rfl

theorem of_same (h : Queued sent s) (hsame : SameLoop s t) : Queued sent t where
  placed := by
    rw [Placed, hsame.point, hsame.resolveWait, hsame.clientDisconnected, hsame.runFinished,
      hsame.head, hsame.eventQueue]
    exact h.placed
  bounded := by rw [hsame.head, hsame.eventQueue]; exact h.bounded
  order := by
    rw [hsame.clientDisconnected, hsame.written, hsame.point, hsame.head, hsame.eventQueue]
    exact h.order
  written := by rw [hsame.written]; exact h.written

/-- A new event is queued, and a loop that awaits the waker is about to go on. -/
theorem push (h : Queued sent s) (hrun : s.runFinished = false) (event : SseEvent Call Result) :
    Queued (sent ++ [event]) (s.push event) := by
  have hplaced := h.placed
  have horder : s.clientDisconnected = false →
      s.written ++ s.point.inFlight ++ (s.eventQueue ++ [event]).drop s.head = sent ++ [event] := by
    intro hconnected
    rw [List.drop_append_of_le_length h.bounded, ← List.append_assoc, h.order hconnected]
  have hbounded : s.head ≤ (s.eventQueue ++ [event]).length := by
    rw [List.length_append]
    exact Nat.le_add_right_of_le h.bounded
  have hwritten : s.written <+: sent ++ [event] := h.written.trans (List.prefix_append _ _)
  rw [Placed, hrun] at hplaced
  unfold Turn.push wakeWaiter
  split
  · next hwait =>
    rw [show s.resolveWait = true from hwait] at hplaced
    have hpoint := hplaced.waiting
    rw [hpoint] at hplaced horder
    exact ⟨⟨rfl, hplaced.2.1⟩, hbounded, horder, hwritten⟩
  · next hwait =>
    rw [Bool.not_eq_true] at hwait
    rw [show s.resolveWait = false from hwait] at hplaced
    refine ⟨?_, hbounded, horder, hwritten⟩
    rw [Placed, show s.resolveWait = false from hwait, hrun]
    exact hplaced.push

theorem settle (h : Queued sent s) : Queued sent s.settle := by
  have hplaced := h.placed
  have horder := h.order
  rw [Placed] at hplaced
  unfold Turn.settle wakeWaiter
  split
  · next hwait =>
    rw [show s.resolveWait = true from hwait] at hplaced
    have hpoint := hplaced.waiting
    rw [hpoint] at hplaced horder
    exact ⟨⟨rfl, hplaced.2.1⟩, h.bounded, horder, h.written⟩
  · next hwait =>
    rw [Bool.not_eq_true] at hwait
    rw [show s.resolveWait = false from hwait] at hplaced
    refine ⟨?_, h.bounded, horder, h.written⟩
    rw [Placed, show s.resolveWait = false from hwait]
    exact hplaced.settle

/-- The listeners of an event queue what the client is to see of it. -/
theorem emit (h : Queued sent s) (hrun : s.runFinished = false)
    (event : SessionEvent Call Result) : Queued (sent ++ event.frame) (s.emit event) := by
  cases event with
  | text chunk =>
    have hsame : SameLoop s { s with pendingTextAcc := s.pendingTextAcc.append chunk } :=
      ⟨rfl, rfl, rfl, rfl, rfl, rfl, rfl⟩
    exact (h.of_same hsame).push hrun (.content chunk)
  | thinking chunk =>
    have hsame : SameLoop s
        { s with pendingThinkingAcc := s.pendingThinkingAcc.append chunk } :=
      ⟨rfl, rfl, rfl, rfl, rfl, rfl, rfl⟩
    exact (h.of_same hsame).push hrun (.thinking chunk)
  | tool_call call =>
    have hsame := sameLoop_flushPending s
    have hflushed := (h.of_same hsame).push (hsame.runFinished.trans hrun) (.tool_call call)
    exact hflushed.of_same (sameLoop_insertRow _ _)
  | tool_result result =>
    exact (h.push hrun (.tool_result result)).of_same (sameLoop_insertRow _ _)
  | turn_end =>
    have hflushed := h.of_same (sameLoop_flushPending s)
    rwa [← List.append_nil sent] at hflushed

end Queued

/-! ## The loop -/

/-- The loop runs: no write is under way, and nobody awaits the waker. -/
structure Going (sent : List (SseEvent Call Result)) (s : Turn Call Result) : Prop where
  resolveWait : s.resolveWait = false
  bounded : s.head ≤ s.eventQueue.length
  order : s.clientDisconnected = false → s.written ++ s.eventQueue.drop s.head = sent
  written : s.written <+: sent

namespace Going

open Turn

variable {sent : List (SseEvent Call Result)} {s : Turn Call Result}

/-- The reset of a drained queue loses nothing. -/
theorem resetQueue (h : Going sent s)
    (hdrained : s.clientDisconnected = false → s.head = s.eventQueue.length) :
    Going sent s.resetQueue ∧ (s.resetQueue.clientDisconnected = false →
      s.resetQueue.head = s.resetQueue.eventQueue.length) := by
  unfold Turn.resetQueue
  split
  · next hreset =>
    refine ⟨⟨h.resolveWait, Nat.le_refl 0, fun hconnected ↦ ?_, h.written⟩, fun _ ↦ rfl⟩
    have horder := h.order hconnected
    rw [hreset.2, List.drop_length] at horder
    exact horder
  · exact ⟨h, hdrained⟩

theorem afterDrain (h : Going sent s)
    (hdrained : s.clientDisconnected = false → s.head = s.eventQueue.length) :
    Queued sent s.afterDrain := by
  obtain ⟨hreset, hempty⟩ := h.resetQueue hdrained
  unfold Turn.afterDrain
  generalize s.resetQueue = t at hreset hempty
  have horder : ∀ point : LoopPoint Call Result, point.inFlight = [] →
      t.clientDisconnected = false →
      t.written ++ point.inFlight ++ t.eventQueue.drop t.head = sent := by
    intro point hpoint hconnected
    rw [hpoint, List.append_nil, hreset.order hconnected]
  dsimp only
  split
  · next hgone =>
    refine ⟨⟨hreset.resolveWait, fun hconnected ↦ ?_⟩, hreset.bounded, horder _ rfl,
      hreset.written⟩
    rw [show t.clientDisconnected = false from hconnected] at hgone
    cases hgone
  · next hconnected =>
    rw [Bool.not_eq_true] at hconnected
    split
    · next hdone =>
      exact ⟨⟨hreset.resolveWait, fun _ ↦ hdone⟩, hreset.bounded, horder _ rfl, hreset.written⟩
    · next hgoes =>
      -- the queue is empty, so the loop goes on because the run does
      have hrun : t.runFinished = false := by
        rw [← Bool.not_eq_true]
        exact fun hfinished ↦ hgoes ⟨hfinished, hempty hconnected⟩
      exact ⟨⟨rfl, hconnected, hrun, hempty hconnected⟩, hreset.bounded, horder _ rfl,
        hreset.written⟩

theorem drain (h : Going sent s) (hconnected : s.clientDisconnected = false) :
    Queued sent s.drain := by
  unfold Turn.drain
  split
  · next event hevent =>
    obtain ⟨hlt, hget⟩ := List.getElem?_eq_some_iff.mp hevent
    refine ⟨⟨h.resolveWait, hconnected⟩, hlt, fun _ ↦ ?_, h.written⟩
    have horder := h.order hconnected
    rw [List.drop_eq_getElem_cons hlt, hget] at horder
    rw [← horder]
    exact List.append_assoc _ _ _
  · next hnone =>
    have hlength := List.getElem?_eq_none_iff.mp hnone
    exact h.afterDrain fun _ ↦ Nat.le_antisymm h.bounded hlength

/-- Once the run has settled nothing is left to write. -/
theorem drainRest (h : Going sent s) (hrun : s.runFinished = true)
    (hdrained : s.clientDisconnected = false → s.head = s.eventQueue.length) :
    Queued sent s.drainRest := by
  have hfinishing : Queued sent { s with point := .finishing } := by
    refine ⟨⟨h.resolveWait, hrun, hdrained⟩, h.bounded, fun hconnected ↦ ?_, h.written⟩
    rw [← h.order hconnected]
    exact congrArg (· ++ _) (List.append_nil s.written)
  unfold Turn.drainRest
  split
  · exact hfinishing
  · next hconnected =>
    rw [Bool.not_eq_true] at hconnected
    have hnone : s.eventQueue[s.head]? = none :=
      List.getElem?_eq_none_iff.mpr (Nat.le_of_eq (hdrained hconnected).symm)
    rw [hnone]
    exact hfinishing

end Going

namespace Queued

open Turn

variable {events : List (SessionEvent Call Result)} {s : Turn Call Result}

/-- A write that ends. -/
theorem write {sent : List (SseEvent Call Result)} (h : Queued sent s)
    {event : SseEvent Call Result} (hpoint : s.point = .writing event) (ok : Bool) :
    Queued sent (s.step (.write ok)) := by
  have hplaced := h.placed
  have horder := h.order
  rw [Placed, hpoint] at hplaced
  rw [hpoint] at horder
  unfold Turn.step
  dsimp only
  split
  · next found hfound =>
    obtain rfl : event = found := LoopPoint.writing.inj (hpoint.symm.trans hfound)
    split
    · have hgoing : Going sent { s with written := s.written ++ [event] } :=
        ⟨hplaced.1, h.bounded, horder, ⟨_, horder hplaced.2⟩⟩
      exact hgoing.drain hplaced.2
    · have hgoing : Going sent { s with clientDisconnected := true } :=
        ⟨hplaced.1, h.bounded, nofun, h.written⟩
      exact hgoing.afterDrain nofun
  · next found hfound => cases hpoint.symm.trans hfound
  · exact h

/-- A loop that writes nothing goes on. -/
theorem going {sent : List (SseEvent Call Result)} (h : Queued sent s)
    (hwait : s.resolveWait = false) (hpoint : s.point.inFlight = []) : Going sent s where
  resolveWait := hwait
  bounded := h.bounded
  order hconnected := by
    have horder := h.order hconnected
    rwa [hpoint, List.append_nil] at horder
  written := h.written

/-- What a step keeps of the queue and the loop. -/
theorem step (h : Queued (frames events) s) (next : StreamStep Call Result) :
    Queued (frames (events ++ s.emits next)) (s.step next) := by
  have hplaced := h.placed
  have hsilent : s.emits next = [] → Queued (frames events) (s.step next) →
      Queued (frames (events ++ s.emits next)) (s.step next) := by
    intro hnil hstep
    rwa [hnil, List.append_nil]
  cases next with
  | emit event =>
    cases hrun : s.runFinished with
    | true =>
      simp only [emits, Turn.step, hrun, if_true, List.append_nil]
      exact h
    | false =>
      simp only [emits, Turn.step, hrun, Bool.false_eq_true, if_false]
      rw [frames, List.flatMap_append, List.flatMap_singleton]
      exact h.emit hrun event
  | settle =>
    refine hsilent rfl ?_
    simp only [Turn.step]
    split
    · exact h
    · exact h.settle
  | write ok =>
    refine hsilent rfl ?_
    cases hpoint : s.point with
    | writing event => exact h.write hpoint ok
    | lastWriting event =>
      rw [Placed, hpoint] at hplaced
      exact hplaced.elim
    | waiting | woken | awaitingRun | finishing | ended =>
      simp only [Turn.step, hpoint]
      exact h
  | resume =>
    refine hsilent rfl ?_
    simp only [Turn.step]
    split
    · next hpoint =>
      rw [Placed, hpoint] at hplaced
      exact (h.going hplaced.1 (by rw [hpoint]; rfl)).drain hplaced.2
    · exact h
  | proceed =>
    refine hsilent rfl ?_
    simp only [Turn.step]
    split
    · next hpoint =>
      split
      · next hrun =>
        rw [Placed, hpoint] at hplaced
        have hgoing := h.going hplaced.1 (by rw [hpoint]; rfl)
        exact hgoing.drainRest hrun fun hconnected ↦ (hplaced.2 hconnected).2
      · exact h
    · exact h
  | finish rateLimited =>
    refine hsilent rfl ?_
    simp only [Turn.step]
    split
    · next hpoint =>
      have horder := h.order
      rw [Placed, hpoint] at hplaced
      rw [hpoint] at horder
      have hended : Queued (frames events) { s with point := .ended } :=
        ⟨hplaced, h.bounded, horder, h.written⟩
      exact hended.of_same (sameLoop_finish s rateLimited)
    · exact h

end Queued

/-! ## The end of a turn -/

namespace Turn

variable {s : Turn Call Result}

theorem afterDrain_point_ne (s : Turn Call Result) : s.afterDrain.point ≠ .ended := by
  unfold afterDrain
  dsimp only
  split
  · nofun
  · split <;> nofun

theorem drain_point_ne (s : Turn Call Result) : s.drain.point ≠ .ended := by
  unfold drain
  split
  · nofun
  · exact afterDrain_point_ne s

theorem drainRest_point_ne (s : Turn Call Result) : s.drainRest.point ≠ .ended := by
  unfold drainRest
  split
  · nofun
  · split <;> nofun

theorem wakeWaiter_point_ne (h : s.point ≠ .ended) : s.wakeWaiter.point ≠ .ended := by
  unfold wakeWaiter
  split
  · nofun
  · exact h

theorem push_point_ne (h : s.point ≠ .ended) (event : SseEvent Call Result) :
    (s.push event).point ≠ .ended := by
  unfold push
  exact wakeWaiter_point_ne h

theorem settle_point_ne (h : s.point ≠ .ended) : s.settle.point ≠ .ended := by
  unfold settle
  exact wakeWaiter_point_ne h

theorem emit_point_ne (h : s.point ≠ .ended) (event : SessionEvent Call Result) :
    (s.emit event).point ≠ .ended := by
  have hflushed : s.flushPending.point ≠ .ended := by
    rw [(sameLoop_flushPending s).point]
    exact h
  cases event with
  | text chunk =>
    have hsame : { s with pendingTextAcc := s.pendingTextAcc.append chunk }.point ≠ .ended := h
    exact push_point_ne hsame (.content chunk)
  | thinking chunk =>
    have hsame : { s with pendingThinkingAcc := s.pendingThinkingAcc.append chunk }.point ≠
        .ended := h
    exact push_point_ne hsame (.thinking chunk)
  | tool_call call => exact push_point_ne hflushed (.tool_call call)
  | tool_result result => exact push_point_ne h (.tool_result result)
  | turn_end => exact hflushed

/-- Nothing happens in a turn that has ended. -/
theorem step_ended (hpoint : s.point = .ended) (hrun : s.runFinished = true)
    (next : StreamStep Call Result) : s.emits next = [] ∧ s.step next = s := by
  cases next <;> simp [emits, step, hpoint, hrun]

end Turn

/-- What the rows of a turn say about its events, before and after its end. -/
structure Saved (events : List (SessionEvent Call Result)) (s : Turn Call Result) : Prop where
  ended : s.point = .ended → Persisted events s.rows
  accumulated : s.point ≠ .ended → Accumulated events s

namespace Saved

open Turn

variable {events : List (SessionEvent Call Result)} {s : Turn Call Result}

theorem of_accumulated (h : Accumulated events s) (hpoint : s.point ≠ .ended) : Saved events s :=
  ⟨fun hended ↦ absurd hended hpoint, fun _ ↦ h⟩

/-- What a step keeps of the rows. -/
theorem step (h : Saved events s) (hqueued : Queued (frames events) s)
    (next : StreamStep Call Result)
    (hbound : (streamedText (events ++ s.emits next)).length ≤ MAX_CHAT_STREAM_BYTES) :
    Saved (events ++ s.emits next) (s.step next) := by
  by_cases hended : s.point = .ended
  · have hplaced := hqueued.placed
    rw [Placed, hended] at hplaced
    obtain ⟨hsilent, hsame⟩ := step_ended hended hplaced.2.1 next
    rw [hsilent, hsame, List.append_nil]
    exact h
  have haccumulated := h.accumulated hended
  have hsilent : s.emits next = [] → Saved events (s.step next) →
      Saved (events ++ s.emits next) (s.step next) := by
    intro hnil hstep
    rwa [hnil, List.append_nil]
  cases next with
  | emit event =>
    cases hrun : s.runFinished with
    | true =>
      simp only [emits, Turn.step, hrun, if_true, List.append_nil]
      exact h
    | false =>
      simp only [emits, Turn.step, hrun, Bool.false_eq_true, if_false] at hbound ⊢
      exact of_accumulated (haccumulated.emit event hbound) (emit_point_ne hended event)
  | settle =>
    refine hsilent rfl ?_
    simp only [Turn.step]
    split
    · exact h
    · exact of_accumulated (haccumulated.of_same (sameRows_settle s)) (settle_point_ne hended)
  | write ok =>
    refine hsilent rfl ?_
    have hwritten : ∀ event, Accumulated events { s with written := s.written ++ [event] } :=
      fun _ ↦ haccumulated.of_same ⟨rfl, rfl, rfl⟩
    have hgone : Accumulated events { s with clientDisconnected := true } :=
      haccumulated.of_same ⟨rfl, rfl, rfl⟩
    simp only [Turn.step]
    split
    · next event _ =>
      split
      · exact of_accumulated ((hwritten event).of_same (sameRows_drain _)) (drain_point_ne _)
      · exact of_accumulated (hgone.of_same (sameRows_afterDrain _)) (afterDrain_point_ne _)
    · next event _ =>
      split
      · exact of_accumulated ((hwritten event).of_same (sameRows_drainRest _))
          (drainRest_point_ne _)
      · exact of_accumulated (hgone.of_same (sameRows_drainRest _)) (drainRest_point_ne _)
    · exact h
  | resume =>
    refine hsilent rfl ?_
    simp only [Turn.step]
    split
    · exact of_accumulated (haccumulated.of_same (sameRows_drain s)) (drain_point_ne s)
    · exact h
  | proceed =>
    refine hsilent rfl ?_
    simp only [Turn.step]
    split
    · split
      · exact of_accumulated (haccumulated.of_same (sameRows_drainRest s)) (drainRest_point_ne s)
      · exact h
    · exact h
  | finish rateLimited =>
    refine hsilent rfl ?_
    simp only [Turn.step]
    split
    · exact ⟨fun _ ↦ haccumulated.finish rateLimited, fun hpoint ↦ absurd rfl hpoint⟩
    · exact h

end Saved

section Runs

open Turn

/-- In a run of steps the queue holds what has been emitted and not yet been written. -/
theorem queued_run {past : List (SessionEvent Call Result)} {s : Turn Call Result}
    (h : Queued (frames past) s) (steps : List (StreamStep Call Result)) :
    Queued (frames (past ++ s.emitted steps)) (run Turn.step s steps) := by
  induction steps generalizing past s with
  | nil =>
    rw [emitted, List.append_nil]
    exact h
  | cons next steps ih =>
    rw [emitted, ← List.append_assoc]
    exact ih (h.step next)

/-- In a run of steps with a text below the bound the rows hold what has been emitted. -/
theorem saved_run {past : List (SessionEvent Call Result)} {s : Turn Call Result}
    (h : Saved past s) (hqueued : Queued (frames past) s) (steps : List (StreamStep Call Result))
    (hbound : (streamedText (past ++ s.emitted steps)).length ≤ MAX_CHAT_STREAM_BYTES) :
    Saved (past ++ s.emitted steps) (run Turn.step s steps) := by
  induction steps generalizing past s with
  | nil =>
    rw [emitted, List.append_nil]
    exact h
  | cons next steps ih =>
    rw [emitted, ← List.append_assoc] at hbound ⊢
    have hfirst : (streamedText (past ++ s.emits next)).length ≤ MAX_CHAT_STREAM_BYTES := by
      rw [streamedText_append, List.length_append] at hbound
      omega
    exact ih (h.step hqueued next hfirst) (hqueued.step next) hbound

end Runs

/-! ## Progress -/

namespace Turn

variable {s : Turn Call Result}

/-- The events that are left in the queue. -/
def queued (s : Turn Call Result) : ℕ := s.eventQueue.length - s.head

/-- A bound on the steps that are left once the run has settled. -/
def remaining (s : Turn Call Result) : ℕ :=
  match s.point with
  | .writing _ | .woken | .waiting => s.queued + 4
  | .awaitingRun => s.queued + 3
  | .lastWriting _ => s.queued + 2
  | .finishing => 1
  | .ended => 0

@[simp] theorem runFinished_afterDrain (s : Turn Call Result) :
    s.afterDrain.runFinished = s.runFinished := by
  have hreset : s.resetQueue.runFinished = s.runFinished := by
    unfold resetQueue
    split <;> rfl
  unfold afterDrain
  dsimp only
  split
  · exact hreset
  · split <;> exact hreset

@[simp] theorem runFinished_drain (s : Turn Call Result) :
    s.drain.runFinished = s.runFinished := by
  unfold drain
  split
  · rfl
  · exact runFinished_afterDrain s

@[simp] theorem runFinished_drainRest (s : Turn Call Result) :
    s.drainRest.runFinished = s.runFinished := by
  unfold drainRest
  split
  · rfl
  · split <;> rfl

/-- A run that has settled stays settled. -/
theorem runFinished_step (hrun : s.runFinished = true) (next : StreamStep Call Result) :
    (s.step next).runFinished = true := by
  cases next with
  | emit | settle => simp only [step, hrun, if_true]
  | write ok =>
    simp only [step]
    split
    · split
      · rw [runFinished_drain]
        exact hrun
      · rw [runFinished_afterDrain]
        exact hrun
    · split <;> rw [runFinished_drainRest] <;> exact hrun
    · exact hrun
  | resume =>
    simp only [step]
    split
    · rw [runFinished_drain]
      exact hrun
    · exact hrun
  | proceed =>
    simp only [step]
    split
    · rw [if_pos hrun, runFinished_drainRest]
      exact hrun
    · exact hrun
  | finish rateLimited =>
    simp only [step]
    split
    · rw [(sameLoop_finish s rateLimited).runFinished]
      exact hrun
    · exact hrun

theorem queued_resetQueue_le (s : Turn Call Result) : s.resetQueue.queued ≤ s.queued := by
  unfold resetQueue
  split
  · exact Nat.zero_le _
  · exact Nat.le_refl _

theorem remaining_afterDrain_le (hpoint : s.afterDrain.point ≠ .waiting) :
    s.afterDrain.remaining ≤ s.queued + 3 := by
  have hqueued := queued_resetQueue_le s
  revert hpoint
  unfold afterDrain
  dsimp only
  split
  · intro _
    exact Nat.add_le_add_right hqueued 3
  · split
    · intro _
      exact Nat.add_le_add_right hqueued 3
    · intro hpoint
      exact absurd rfl hpoint

theorem remaining_drain_le (hpoint : s.drain.point ≠ .waiting) :
    s.drain.remaining ≤ s.queued + 3 := by
  revert hpoint
  unfold drain
  split
  · next event hevent =>
    intro _
    have hlt := (List.getElem?_eq_some_iff.mp hevent).1
    simp only [remaining, queued]
    omega
  · exact remaining_afterDrain_le

theorem remaining_drainRest_lt (s : Turn Call Result) :
    s.drainRest.remaining < s.queued + 3 := by
  unfold drainRest
  split
  · simp only [remaining]
    omega
  · split
    · next event hevent =>
      have hlt := (List.getElem?_eq_some_iff.mp hevent).1
      simp only [remaining, queued]
      omega
    · simp only [remaining]
      omega

end Turn

section Progress

open Turn

variable {sent : List (SseEvent Call Result)} {events : List (SessionEvent Call Result)}
  {s : Turn Call Result}

/-- Once the run has settled nobody awaits the waker. -/
theorem Queued.point_ne_waiting (h : Queued sent s) (hrun : s.runFinished = true) :
    s.point ≠ .waiting := by
  intro hpoint
  have hplaced := h.placed
  rw [Placed, hpoint] at hplaced
  rw [hplaced.2.2.1] at hrun
  cases hrun

/-- Once the run has settled each step brings the turn closer to its end. -/
theorem Queued.remaining_step_lt (h : Queued (frames events) s) (hrun : s.runFinished = true)
    {next : StreamStep Call Result} (henabled : s.Enabled next) :
    (s.step next).remaining < s.remaining := by
  have hpoint := (h.step next).point_ne_waiting (runFinished_step hrun next)
  cases next with
  | emit | settle =>
    rw [Enabled, hrun] at henabled
    cases henabled
  | write ok =>
    rcases henabled with ⟨event, hwriting⟩ | ⟨event, hwriting⟩
    · have hremaining : s.remaining = s.queued + 4 := by rw [remaining, hwriting]
      rw [hremaining]
      revert hpoint
      simp only [Turn.step]
      split
      · split
        · intro hpoint
          exact Nat.lt_succ_of_le (remaining_drain_le hpoint)
        · intro hpoint
          exact Nat.lt_succ_of_le (remaining_afterDrain_le hpoint)
      · next hother => cases hwriting.symm.trans hother
      · next hother _ => exact absurd hwriting (hother event)
    · have hplaced := h.placed
      rw [Placed, hwriting] at hplaced
      exact hplaced.elim
  | resume =>
    rw [Enabled] at henabled
    have hremaining : s.remaining = s.queued + 4 := by rw [remaining, henabled]
    rw [hremaining]
    revert hpoint
    simp only [Turn.step]
    split
    · intro hpoint
      exact Nat.lt_succ_of_le (remaining_drain_le hpoint)
    · next hother => exact absurd henabled hother
  | proceed =>
    have hremaining : s.remaining = s.queued + 3 := by rw [remaining, henabled.1]
    rw [hremaining]
    simp only [Turn.step]
    split
    · rw [if_pos henabled.2]
      exact remaining_drainRest_lt s
    · next hother => exact absurd henabled.1 hother
  | finish rateLimited =>
    rw [Enabled] at henabled
    have hremaining : s.remaining = 1 := by rw [remaining, henabled]
    rw [hremaining]
    simp only [Turn.step]
    split
    · rw [remaining, (sameLoop_finish s rateLimited).point]
      exact Nat.one_pos
    · next hother => exact absurd henabled hother

/-- Once the run has settled only so many steps can happen. -/
theorem Queued.length_le_remaining (h : Queued (frames events) s) (hrun : s.runFinished = true)
    {steps : List (StreamStep Call Result)}
    (hsteps : Disciplined Turn.step Turn.Enabled s steps) : steps.length ≤ s.remaining := by
  induction steps generalizing events s with
  | nil => exact Nat.zero_le _
  | cons next steps ih =>
    have hfirst := h.remaining_step_lt hrun hsteps.1
    have hrest := ih (h.step next) (runFinished_step hrun next) hsteps.2
    rw [List.length_cons]
    omega

/-- A turn that has not ended goes on once the run has settled. -/
theorem Queued.exists_enabled (h : Queued sent s) (hrun : s.runFinished = true)
    (hpoint : s.point ≠ .ended) : ∃ next, s.Enabled next := by
  have hwaiting := h.point_ne_waiting hrun
  cases hcase : s.point with
  | writing event => exact ⟨.write true, .inl ⟨event, hcase⟩⟩
  | waiting => exact absurd hcase hwaiting
  | woken => exact ⟨.resume, hcase⟩
  | awaitingRun => exact ⟨.proceed, hcase, hrun⟩
  | lastWriting event => exact ⟨.write true, .inr ⟨event, hcase⟩⟩
  | finishing => exact ⟨.finish false, hcase⟩
  | ended => exact absurd hcase hpoint

end Progress

/-! ## The turn as a whole -/

/-- The loop has been left. -/
def LoopPoint.Left : LoopPoint Call Result → Prop
  | .awaitingRun | .lastWriting _ | .finishing | .ended => True
  | _ => False

/-- The state of a turn after the session has emitted the events. -/
structure StreamedWhole (events : List (SessionEvent Call Result)) (s : Turn Call Result) :
    Prop where
  /-- A turn that has ended has saved all. -/
  persisted : (streamedText events).length ≤ MAX_CHAT_STREAM_BYTES → s.point = .ended →
    Persisted events s.rows
  /-- As long as the client is connected nothing is lost, repeated or moved. -/
  delivered : s.clientDisconnected = false →
    s.written ++ s.point.inFlight ++ s.eventQueue.drop s.head = frames events
  /-- A client that goes away has got the first events. -/
  written : s.written <+: frames events
  /-- The loop is left by a client that is gone, or after the run and with all written. -/
  left : s.point.Left → s.clientDisconnected = false →
    s.runFinished = true ∧ s.written = frames events
  /-- The waker is awaited only while the run goes on and all is written. -/
  waiting : s.point = .waiting → s.runFinished = false ∧ s.written = frames events
  /-- The loop never gets stuck once the run has settled, and it ends. -/
  going : s.runFinished = true → s.point ≠ .ended → ∃ next, s.Enabled next
  ends : s.runFinished = true → ∃ bound, ∀ steps,
    Disciplined Turn.step Turn.Enabled s steps → steps.length ≤ bound

/-- Every run of a streamed turn saves and delivers the events of its session whole. -/
theorem streamedWhole_run (steps : List (StreamStep Call Result)) :
    StreamedWhole (Turn.emitted {} steps) (run Turn.step {} steps) := by
  have hinitial : Queued (frames ([] : List (SessionEvent Call Result))) {} := Queued.initial
  have hqueued : Queued (frames (Turn.emitted {} steps)) (run Turn.step {} steps) :=
    queued_run hinitial steps
  have hplaced := hqueued.placed
  -- an empty queue with no write under way
  have hwritten : (run Turn.step {} steps).clientDisconnected = false →
      (run Turn.step {} steps).point.inFlight = [] →
      (run Turn.step {} steps).head = (run Turn.step {} steps).eventQueue.length →
      (run Turn.step {} steps).written = frames (Turn.emitted {} steps) := by
    intro hconnected hpoint hdrained
    have horder := hqueued.order hconnected
    rwa [hpoint, hdrained, List.drop_length, List.append_nil, List.append_nil] at horder
  refine ⟨fun hbound ↦ ?_, hqueued.order, hqueued.written, fun hleft hconnected ↦ ?_,
    fun hpoint ↦ ?_, hqueued.exists_enabled, fun hrun ↦ ?_⟩
  · have hsaved := saved_run (Saved.of_accumulated Accumulated.initial nofun) hinitial steps hbound
    exact hsaved.ended
  · rw [Turn.Placed] at hplaced
    cases hpoint : (run Turn.step {} steps).point with
    | writing | waiting | woken =>
      rw [hpoint] at hleft
      exact hleft.elim
    | awaitingRun =>
      rw [hpoint] at hplaced
      obtain ⟨hrun, hdrained⟩ := hplaced.2 hconnected
      exact ⟨hrun, hwritten hconnected (by rw [hpoint]; rfl) hdrained⟩
    | lastWriting =>
      rw [hpoint] at hplaced
      exact hplaced.elim
    | finishing | ended =>
      rw [hpoint] at hplaced
      exact ⟨hplaced.2.1, hwritten hconnected (by rw [hpoint]; rfl) (hplaced.2.2 hconnected)⟩
  · rw [Turn.Placed, hpoint] at hplaced
    exact ⟨hplaced.2.2.1, hwritten hplaced.2.1 (by rw [hpoint]; rfl) hplaced.2.2.2⟩
  · exact ⟨_, fun _ ↦ hqueued.length_le_remaining hrun⟩

end Flockctl.Chats.Streaming
