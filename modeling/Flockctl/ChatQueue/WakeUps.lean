import Flockctl.ChatQueue.SentOnce

/-!
# Which wake-ups of the runner survive

The interval is armed exactly while the tab is visible. A tick that runs ends once its calls have
returned. As long as no tick runs, every change of the store that lets the runner send for a chat
asks for a tick, and the first microtask after each request is a tick for all chats with a queue.
-/

namespace Flockctl.ChatQueue

open Collections Transition

universe u v w

variable {Hook : Type w} {Chat : Type u} {Data : Type v}

/-! ## What an event of the tab keeps -/

/-- The event is not one of those that belong to a tick as a whole. -/
def Event.Within : Event Hook Chat Data → Prop
  | .tick | .tickEnd => False
  | _ => True

variable [DecidableEq Hook] [DecidableEq Chat]

namespace Tab

/-- The tick that runs goes on, with no call of `drainOne` added. -/
structure SameTick (s t : Tab Hook Chat Data) : Prop where
  ticking : t.ticking = s.ticking
  draining : t.draining.Sublist s.draining

variable {s t : Tab Hook Chat Data}

namespace SameTick

omit [DecidableEq Hook] [DecidableEq Chat] in
theorem refl (s : Tab Hook Chat Data) : SameTick s s := ⟨rfl, List.Sublist.refl _⟩

omit [DecidableEq Hook] [DecidableEq Chat] in
theorem trans {u : Tab Hook Chat Data} (hst : SameTick s t) (htu : SameTick t u) : SameTick s u :=
  ⟨htu.ticking.trans hst.ticking, htu.draining.trans hst.draining⟩

omit [DecidableEq Hook] in
theorem reorderQueue (s : Tab Hook Chat Data) (chatId : Chat) (fromIndex toIndex : ℕ) :
    SameTick s (s.reorderQueue chatId fromIndex toIndex) := by
  unfold Tab.reorderQueue
  dsimp only
  split
  · exact refl s
  · split
    · exact refl s
    · exact ⟨rfl, List.Sublist.refl _⟩

omit [DecidableEq Hook] [DecidableEq Chat] in
theorem removeEntry (s : Tab Hook Chat Data) (queueEntryId : Option ℕ) :
    SameTick s (s.removeEntry queueEntryId) := by
  cases queueEntryId with
  | none => exact refl s
  | some id => exact ⟨rfl, List.Sublist.refl _⟩

variable (s : Tab Hook Chat Data)

theorem mount (hook : Hook) (chatId : Chat) :
    SameTick s (s.mount hook chatId) := by
  unfold Tab.mount
  split
  · exact refl s
  · exact ⟨rfl, List.Sublist.refl _⟩

theorem unmount (hook : Hook) : SameTick s (s.unmount hook) := by
  unfold Tab.unmount
  split
  · exact ⟨rfl, List.Sublist.refl _⟩
  · exact refl s

theorem drainEffect (hook : Hook) (render : Render) :
    SameTick s (s.drainEffect hook render) := by
  unfold Tab.drainEffect
  split
  · exact refl s
  · exact ⟨rfl, List.Sublist.refl _⟩

theorem directSend (hook : Hook) (data : Data) :
    SameTick s (s.directSend hook data) := by
  unfold Tab.directSend
  split
  · split <;> exact ⟨rfl, List.Sublist.refl _⟩
  · exact refl s

theorem acceptSend (sender : Sender Hook Chat) (send : Send Chat Data) :
    SameTick s (s.acceptSend sender send) :=
  have hremoved := removeEntry s send.queueEntryId
  ⟨hremoved.ticking, hremoved.draining⟩

theorem finishDrain (chatId : Chat) : SameTick s (s.finishDrain chatId) :=
  ⟨rfl, List.filter_sublist⟩

omit [DecidableEq Hook] in
theorem checked (s : Tab Hook Chat Data) (chatId : Chat) : SameTick s (s.checked chatId) :=
  ⟨rfl, List.filter_sublist⟩

theorem answer (sender : Sender Hook Chat) (answer : Answer) :
    SameTick s (s.answer sender answer) := by
  unfold Tab.answer
  split
  · exact refl s
  · next send _ =>
    split
    · exact refl s
    · cases sender with
      | hook hook =>
        cases answer with
        | success body =>
          cases body with
          | true => exact acceptSend s (.hook hook) send
          | false => exact ⟨rfl, List.Sublist.refl _⟩
        | rejected | failed => exact ⟨rfl, List.Sublist.refl _⟩
      | runner chatId =>
        cases answer with
        | success body => exact acceptSend s (.runner chatId) send
        | rejected status =>
          dsimp only [answerRunner]
          split
          · exact (removeEntry s send.queueEntryId).trans (finishDrain _ chatId)
          · exact finishDrain s chatId
        | failed => exact finishDrain s chatId

theorem bodyEnd (sender : Sender Hook Chat) :
    SameTick s (s.bodyEnd sender) := by
  unfold Tab.bodyEnd
  split
  · exact refl s
  · split
    · cases sender with
      | hook hook => exact ⟨rfl, List.Sublist.refl _⟩
      | runner chatId => exact finishDrain s chatId
    · exact refl s

theorem status (chatId : Chat) (found : RunningStatus) :
    SameTick s (s.status chatId found) := by
  unfold Tab.status
  split
  · exact refl s
  · cases found with
    | running => exact checked s chatId
    | notFound => exact ⟨rfl, List.filter_sublist⟩
    | idle =>
      dsimp only
      split
      · exact checked s chatId
      · exact ⟨rfl, List.Sublist.refl _⟩

theorem step {event : Event Hook Chat Data} (hevent : event.Within) :
    SameTick s (s.step event) := by
  cases event with
  | enqueueMessage | removeFromQueue | clearQueue => exact ⟨rfl, List.Sublist.refl _⟩
  | reorderQueue chatId fromIndex toIndex => exact reorderQueue s chatId fromIndex toIndex
  | mount hook chatId => exact mount s hook chatId
  | unmount hook => exact unmount s hook
  | drainEffect hook render => exact drainEffect s hook render
  | directSend hook data => exact directSend s hook data
  | answer sender found => exact answer s sender found
  | bodyEnd sender => exact bodyEnd s sender
  | status chatId found => exact status s chatId found
  | tick | tickEnd => exact hevent.elim

end SameTick

/-! ## Chats for which the runner may send -/

/-- The runner may send the head of the queue if the server is done with the chat. -/
structure Waits (s : Tab Hook Chat Data) (chatId : Chat) : Prop where
  queued : s.getQueue chatId ≠ []
  unseen : s.isChatActive chatId = false
  free : s.inFlightDrains chatId = false

namespace Waits

variable {chatId : Chat}

omit [DecidableEq Hook] in
theorem mem_getAllChatsWithQueue (h : s.Waits chatId) : chatId ∈ s.getAllChatsWithQueue := by
  have hqueued := h.queued
  rw [getAllChatsWithQueue, List.mem_filter]
  constructor
  · rw [JsMap.mem_keys_iff]
    cases hget : s.queues.get chatId with
    | none =>
      rw [getQueue, hget] at hqueued
      exact absurd rfl hqueued
    | some list => exact ⟨list, rfl⟩
  · cases hlist : s.getQueue chatId with
    | nil => exact absurd hlist hqueued
    | cons first rest => rfl

omit [DecidableEq Hook] in
theorem of_removeEntry {queueEntryId : Option ℕ}
    (h : (s.removeEntry queueEntryId).Waits chatId) : s.Waits chatId := by
  cases queueEntryId with
  | none => exact h
  | some id =>
    refine ⟨fun hnil ↦ h.queued ?_, h.unseen, h.free⟩
    have hremoved := getQueue_removeFromQueue (s := s) id chatId
    rw [hnil] at hremoved
    exact hremoved

omit [DecidableEq Hook] in
theorem of_clearQueue {other : Chat} (h : (s.clearQueue other).Waits chatId) : s.Waits chatId := by
  refine ⟨fun hnil ↦ h.queued ?_, h.unseen, h.free⟩
  rw [getQueue_clearQueue, hnil, ite_self]

omit [DecidableEq Hook] in
theorem of_reorderQueue {other : Chat} {fromIndex toIndex : ℕ}
    (h : (s.reorderQueue other fromIndex toIndex).Waits chatId) : s.Waits chatId := by
  have hqueued : s.getQueue chatId ≠ [] := by
    obtain ⟨entry, hentry⟩ := List.exists_mem_of_ne_nil _ h.queued
    exact List.ne_nil_of_mem
      ((mem_getQueue_reorderQueue other chatId fromIndex toIndex entry).mp hentry)
  refine ⟨hqueued, ?_, ?_⟩
  · have hunseen := h.unseen
    unfold reorderQueue at hunseen
    dsimp only at hunseen
    split at hunseen
    · exact hunseen
    · split at hunseen <;> exact hunseen
  · have hfree := h.free
    unfold reorderQueue at hfree
    dsimp only at hfree
    split at hfree
    · exact hfree
    · split at hfree <;> exact hfree

/-- A request marks its chat. -/
theorem of_sendFrom {sender : Sender Hook Chat} {other : Chat} {data : Data}
    {queueEntryId : Option ℕ} (h : (s.sendFrom sender other data queueEntryId).Waits chatId) :
    s.Waits chatId := by
  have hfree : Function.update s.inFlightDrains other true chatId = false := h.free
  refine ⟨h.queued, h.unseen, ?_⟩
  by_cases hsame : chatId = other
  · rw [hsame, Function.update_self] at hfree
    cases hfree
  · rwa [Function.update_of_ne hsame] at hfree

omit [DecidableEq Hook] in
/-- A release matters only where there was a mark. -/
theorem of_unmark {other : Chat} (hmark : s.inFlightDrains other = false)
    (h : { s with inFlightDrains := Function.update s.inFlightDrains other false }.Waits chatId) :
    s.Waits chatId := by
  have hfree : Function.update s.inFlightDrains other false chatId = false := h.free
  refine ⟨h.queued, h.unseen, ?_⟩
  by_cases hsame : chatId = other
  · rw [hsame, hmark]
  · rwa [Function.update_of_ne hsame] at hfree

theorem of_mount {hook : Hook} {other : Chat} (h : (s.mount hook other).Waits chatId) :
    s.Waits chatId := by
  unfold mount at h
  split at h
  · exact h
  · have hunseen := h.unseen
    refine ⟨h.queued, ?_, h.free⟩
    simp only [isChatActive, decide_eq_false_iff_not] at hunseen ⊢
    by_cases hsame : chatId = other
    · rw [hsame, Function.update_self] at hunseen
      omega
    · rwa [Function.update_of_ne hsame] at hunseen

theorem of_unmount {hook : Hook} (hquiet : s.asksForTick (.unmount hook) = false)
    (h : (s.unmount hook).Waits chatId) : s.Waits chatId := by
  unfold unmount at h
  simp only [asksForTick] at hquiet
  split at h
  · next other hother hmounted =>
    have hunseen := h.unseen
    refine ⟨h.queued, ?_, h.free⟩
    rw [hother, hmounted] at hquiet
    simp only [decide_eq_false_iff_not] at hquiet
    simp only [isChatActive, decide_eq_false_iff_not] at hunseen ⊢
    by_cases hsame : chatId = other
    · rw [hsame, Function.update_self] at hunseen
      omega
    · rwa [Function.update_of_ne hsame] at hunseen
  · exact h

theorem of_drainEffect {hook : Hook} {render : Render}
    (h : (s.drainEffect hook render).Waits chatId) : s.Waits chatId := by
  unfold drainEffect at h
  split at h
  · exact h
  · have hsent := of_sendFrom h
    exact ⟨hsent.queued, hsent.unseen, hsent.free⟩

theorem of_directSend {hook : Hook} {data : Data}
    (hquiet : s.asksForTick (.directSend hook data) = false)
    (h : (s.directSend hook data).Waits chatId) : s.Waits chatId := by
  unfold directSend at h
  simp only [asksForTick] at hquiet
  split at h
  · next other hother hmounted =>
    split at h
    · next hstarting =>
      rw [hother, hmounted] at hquiet
      simp only [hstarting, Bool.true_or] at hquiet
      cases hquiet
    · have hsent := of_sendFrom h
      exact ⟨hsent.queued, hsent.unseen, hsent.free⟩
  · exact h

theorem of_acceptSend {sender : Sender Hook Chat} {send : Send Chat Data}
    (h : (s.acceptSend sender send).Waits chatId) : s.Waits chatId := by
  have hremoved : (s.removeEntry send.queueEntryId).Waits chatId := ⟨h.queued, h.unseen, h.free⟩
  exact hremoved.of_removeEntry

theorem of_answer {sender : Sender Hook Chat} {answer : Answer}
    (hquiet : s.asksForTick (.answer sender answer) = false)
    (h : (s.answer sender answer).Waits chatId) : s.Waits chatId := by
  unfold Tab.answer at h
  simp only [asksForTick] at hquiet
  split at h
  · exact h
  · next send hsend =>
    split at h
    · exact h
    · next hwaits =>
      rw [hsend] at hquiet
      simp only [if_neg hwaits] at hquiet
      cases sender with
      | hook hook =>
        cases answer with
        | success body =>
          cases body with
          | true => exact of_acceptSend h
          | false => exact of_unmark hquiet ⟨h.queued, h.unseen, h.free⟩
        | rejected | failed => exact of_unmark hquiet ⟨h.queued, h.unseen, h.free⟩
      | runner other =>
        cases answer with
        | success body => exact of_acceptSend h
        | rejected | failed => cases hquiet

theorem of_bodyEnd {sender : Sender Hook Chat}
    (hquiet : s.asksForTick (.bodyEnd sender) = false) (h : (s.bodyEnd sender).Waits chatId) :
    s.Waits chatId := by
  unfold Tab.bodyEnd at h
  simp only [asksForTick] at hquiet
  split at h
  · exact h
  · next send hsend =>
    split at h
    · next haccepted =>
      rw [hsend] at hquiet
      simp only [haccepted, Bool.true_and] at hquiet
      cases sender with
      | hook hook => exact of_unmark hquiet ⟨h.queued, h.unseen, h.free⟩
      | runner other => cases hquiet
    · exact h

theorem of_status {other : Chat} {found : RunningStatus}
    (h : (s.status other found).Waits chatId) : s.Waits chatId := by
  unfold Tab.status at h
  split at h
  · exact h
  · cases found with
    | running => exact ⟨h.queued, h.unseen, h.free⟩
    | notFound =>
      have hcleared := of_clearQueue h
      exact ⟨hcleared.queued, hcleared.unseen, hcleared.free⟩
    | idle =>
      dsimp only at h
      split at h
      · exact ⟨h.queued, h.unseen, h.free⟩
      · have hsent := of_sendFrom h
        exact ⟨hsent.queued, hsent.unseen, hsent.free⟩

/-- An event that lets the runner send for a chat asks for a tick. -/
theorem of_step {event : Event Hook Chat Data} (hevent : event.Within)
    (hquiet : s.asksForTick event = false) (h : (s.step event).Waits chatId) :
    s.Waits chatId := by
  cases event with
  | enqueueMessage => cases hquiet
  | removeFromQueue id =>
    have hremoved : (s.removeEntry (some id)).Waits chatId := h
    exact hremoved.of_removeEntry
  | clearQueue other => exact of_clearQueue h
  | reorderQueue other fromIndex toIndex => exact of_reorderQueue h
  | mount hook other => exact of_mount h
  | unmount hook => exact of_unmount hquiet h
  | drainEffect hook render => exact of_drainEffect h
  | directSend hook data => exact of_directSend hquiet h
  | answer sender found => exact of_answer hquiet h
  | bodyEnd sender => exact of_bodyEnd hquiet h
  | status other found => exact of_status h
  | tick | tickEnd => exact hevent.elim

end Waits

end Tab

/-! ## Runs of the runner -/

namespace Runner

/-- What holds of the flag, the counters and the microtasks of a runner. -/
structure Counted (s : Runner Hook Chat Data) : Prop where
  armed : s.safetyNetInterval = !s.hidden
  pending : s.microtasks.count .tick = if s.pending then 1 else 0
  idle : s.tab.ticking = false →
    s.tab.draining = [] ∧ .returned ∉ s.microtasks ∧ .settled ∉ s.microtasks
  busy : s.tab.ticking = true →
    s.unhandled = s.tab.draining.length + s.microtasks.count .returned ∧
      s.microtasks.count .settled = if s.unhandled = 0 then 1 else 0

namespace Counted

variable {s : Runner Hook Chat Data}

omit [DecidableEq Hook] in
theorem start (hidden : Bool) : (Runner.start hidden : Runner Hook Chat Data).Counted where
  armed := rfl
  pending := rfl
  idle _ := by simp [Runner.start, Tab.initial]
  busy hticking := by cases hticking

omit [DecidableEq Hook] in
theorem scheduleTick (h : s.Counted) : s.scheduleTick.Counted := by
  unfold Runner.scheduleTick
  split
  · exact h
  · next hpending =>
    have hcount := h.pending
    rw [if_neg hpending] at hcount
    refine ⟨h.armed, by simp [hcount], fun hidle ↦ ?_, fun hbusy ↦ ?_⟩
    · have hold := h.idle hidle
      simpa using hold
    · have hold := h.busy hbusy
      simpa using hold

/-- An event keeps the counts: each call that returns leaves its handler. -/
theorem perform (h : s.Counted) {event : Event Hook Chat Data} (hevent : event.Within) :
    (s.perform event).Counted := by
  have hsame := Tab.SameTick.step s.tab hevent
  have hlength := hsame.draining.length_le
  have hasked : (if s.tab.asksForTick event then s.scheduleTick else s).Counted := by
    split
    · exact h.scheduleTick
    · exact h
  have htab : (if s.tab.asksForTick event then s.scheduleTick else s).tab = s.tab := by
    split
    · unfold Runner.scheduleTick
      split <;> rfl
    · rfl
  unfold Runner.perform
  generalize (if s.tab.asksForTick event then s.scheduleTick else s) = asked at hasked htab
  refine ⟨hasked.armed, ?_, fun hidle ↦ ?_, fun hbusy ↦ ?_⟩
  · rw [← hasked.pending]
    simp [List.count_replicate]
  · have hold := hasked.idle (by rw [htab, ← hsame.ticking]; exact hidle)
    rw [htab] at hold
    have hnil : (s.tab.step event).draining = [] :=
      List.eq_nil_of_length_eq_zero (by rw [hold.1] at hlength; exact Nat.le_zero.mp hlength)
    refine ⟨hnil, ?_, ?_⟩
    · simp [hold.1, hnil, hold.2.1]
    · simp [hold.1, hnil, hold.2.2]
  · have hold := hasked.busy (by rw [htab, ← hsame.ticking]; exact hbusy)
    rw [htab] at hold
    constructor
    · simp only [List.count_append, List.count_replicate_self]
      omega
    · rw [← hold.2]
      simp [List.count_replicate]

omit [DecidableEq Hook] in
theorem count_map_checked {task : Microtask Chat} (htask : ∀ chatId, task ≠ .checked chatId)
    (chatIds : List Chat) : (chatIds.map .checked).count task = 0 := by
  refine List.count_eq_zero_of_not_mem fun hmem ↦ ?_
  obtain ⟨chatId, -, hchatId⟩ := List.mem_map.mp hmem
  exact htask chatId hchatId.symm

omit [DecidableEq Hook] in
/-- A tick that starts waits for the handlers of all its calls, or for nothing. -/
theorem tick (h : s.Counted) : s.tick.Counted := by
  unfold Runner.tick
  split
  · exact ⟨h.armed, h.pending, h.idle, h.busy⟩
  · next hidle =>
    obtain ⟨-, hreturned, hsettled⟩ := h.idle (Bool.eq_false_iff.mpr hidle)
    have hcalls : s.tab.drainable.length ≤ s.tab.getAllChatsWithQueue.length :=
      List.length_filter_le _ _
    have hticking : s.tab.tick.ticking = true := by
      rw [Tab.tick, if_neg hidle]
    have hdraining : s.tab.tick.draining = s.tab.drainable := by
      rw [Tab.tick, if_neg hidle]
    have htick : (s.cachedIdle.map Microtask.checked).count .tick = 0 :=
      count_map_checked (fun _ hsame ↦ by cases hsame) _
    have hreturn : (s.cachedIdle.map Microtask.checked).count .returned = 0 :=
      count_map_checked (fun _ hsame ↦ by cases hsame) _
    have hsettle : (s.cachedIdle.map Microtask.checked).count .settled = 0 :=
      count_map_checked (fun _ hsame ↦ by cases hsame) _
    refine ⟨h.armed, ?_, fun hstill ↦ ?_, fun _ ↦ ?_⟩
    · rw [← h.pending]
      simp only [List.count_append, htick]
      split <;> simp [List.count_replicate]
    · dsimp only at hstill
      rw [hticking] at hstill
      cases hstill
    · dsimp only
      rw [hdraining]
      simp only [List.count_append, List.count_eq_zero_of_not_mem hreturned,
        List.count_eq_zero_of_not_mem hsettled, hreturn, hsettle, List.length_eq_zero_iff]
      split
      · next hnone =>
        rw [hnone] at hcalls
        have hzero : s.tab.drainable.length = 0 := Nat.le_zero.mp hcalls
        rw [hnone]
        exact ⟨hzero.symm, rfl⟩
      · next hsome =>
        rw [List.count_replicate_self]
        constructor
        · omega
        · simp [List.count_replicate]

/-- The next microtask keeps the counts. -/
theorem runMicrotask (h : s.Counted) : s.runMicrotask.Counted := by
  unfold Runner.runMicrotask
  have hpending := h.pending
  have hidle := h.idle
  have hbusy := h.busy
  split
  · exact h
  · next rest hmicrotasks =>
    rw [hmicrotasks] at hpending hidle hbusy
    have hrest : rest.count .tick = 0 := by
      rw [List.count_cons_self] at hpending
      split at hpending <;> omega
    have htaken : Counted { s with pending := false, microtasks := rest } :=
      ⟨h.armed, hrest, fun hfree ↦ by simpa using hidle hfree, fun hheld ↦ by
        simpa using hbusy hheld⟩
    exact htaken.tick
  · next chatId rest hmicrotasks =>
    rw [hmicrotasks] at hpending hidle hbusy
    have htaken : Counted { s with microtasks := rest } :=
      ⟨h.armed, by simpa using hpending, fun hfree ↦ by simpa using hidle hfree, fun hheld ↦ by
        simpa using hbusy hheld⟩
    exact htaken.perform trivial
  · next rest hmicrotasks =>
    rw [hmicrotasks] at hpending hidle hbusy
    have hticking : s.tab.ticking = true := by
      rw [← Bool.not_eq_false]
      exact fun hfree ↦ (hidle hfree).2.1 List.mem_cons_self
    obtain ⟨hunhandled, hsettled⟩ := hbusy hticking
    rw [List.count_cons_self] at hunhandled
    have hnone : rest.count .settled = 0 := by
      rw [if_neg (by omega)] at hsettled
      simpa using hsettled
    refine ⟨h.armed, ?_, fun hfree ↦ ?_, fun _ ↦ ⟨?_, ?_⟩⟩
    · rw [← hpending]
      dsimp only
      split <;> simp
    · rw [show s.tab.ticking = false from hfree] at hticking
      cases hticking
    · have hcount : (if s.unhandled = 1 then rest ++ [.settled] else rest).count .returned =
          rest.count .returned := by split <;> simp
      dsimp only
      rw [hcount]
      omega
    · dsimp only
      split
      · next hone => simp [hone, hnone]
      · next hmore =>
        rw [hnone, if_neg (by omega)]
  · next rest hmicrotasks =>
    rw [hmicrotasks] at hpending hidle hbusy
    have hticking : s.tab.ticking = true := by
      rw [← Bool.not_eq_false]
      exact fun hfree ↦ (hidle hfree).2.2 List.mem_cons_self
    obtain ⟨hunhandled, hsettled⟩ := hbusy hticking
    have hzero : s.unhandled = 0 := by
      by_contra hmore
      rw [if_neg hmore, List.count_cons_self] at hsettled
      omega
    rw [if_pos hzero, List.count_cons_self] at hsettled
    rw [hzero] at hunhandled
    have hdraining : s.tab.draining = [] := List.eq_nil_of_length_eq_zero (by omega)
    have hended : s.tab.tickEnd = { s.tab with ticking := false } := by
      rw [Tab.tickEnd, if_pos (by rw [hdraining]; rfl)]
    have hreturned : (Microtask.settled :: rest).count .returned = 0 := by omega
    refine ⟨h.armed, by simpa using hpending, fun _ ↦ ⟨?_, ?_, ?_⟩, fun hheld ↦ ?_⟩
    · dsimp only
      rw [hended]
      exact hdraining
    · exact fun hmem ↦ List.count_eq_zero.mp hreturned (List.mem_cons_of_mem _ hmem)
    · have hnone : rest.count .settled = 0 := by omega
      exact List.count_eq_zero.mp hnone
    · dsimp only at hheld
      rw [hended] at hheld
      cases hheld

/-- Every step keeps the counts. -/
theorem step (h : s.Counted) (next : RunnerStep Hook Chat Data) : (s.step next).Counted := by
  have hreceive : (s.receive next).Counted := by
    cases next with
    | tab event =>
      cases event with
      | tick | tickEnd => exact h
      | enqueueMessage | removeFromQueue | clearQueue | reorderQueue | mount | unmount
      | drainEffect | directSend | answer | bodyEnd | status => exact h.perform trivial
    | cache chatId isRunning =>
      have hcached : Counted { s with cached := Function.update s.cached chatId isRunning } :=
        ⟨h.armed, h.pending, h.idle, h.busy⟩
      exact hcached.scheduleTick
    | server chatId isRunning => exact ⟨h.armed, h.pending, h.idle, h.busy⟩
    | interval =>
      dsimp only [receive]
      split
      · exact h.scheduleTick
      · exact h
    | visibilitychange hidden =>
      dsimp only [receive, onVisibilityChange]
      have hscheduled := h.scheduleTick
      split
      · exact ⟨rfl, h.pending, h.idle, h.busy⟩
      · exact ⟨rfl, hscheduled.pending, hscheduled.idle, hscheduled.busy⟩
    | microtask => exact h
  cases next with
  | microtask => exact h.runMicrotask
  | tab | cache | server | interval | visibilitychange =>
    dsimp only [Runner.step]
    split
    · exact hreceive
    · exact h

end Counted

/-! ## Wake-ups -/

/-- The chat has a queued message, no hook and no drain in flight, and is idle on the server. -/
def Eligible (s : Runner Hook Chat Data) (chatId : Chat) : Prop :=
  s.tab.Waits chatId ∧ s.isRunning chatId = false

/-- The step asks for a tick. -/
def Asks (s : Runner Hook Chat Data) : RunnerStep Hook Chat Data → Prop
  | .tab event => s.tab.asksForTick event = true
  | .cache _ _ => True
  | .interval => s.safetyNetInterval = true
  | .visibilitychange hidden => hidden = false
  | .server _ _ | .microtask => False

/-- In every state without microtasks an eligible chat is still to be examined by a tick that runs,
or a tick is scheduled, or the interval is armed. -/
def NoWakeUpMissed (Hook : Type w) (Chat : Type u) (Data : Type v) [DecidableEq Hook]
    [DecidableEq Chat] : Prop :=
  ∀ hidden steps chatId, let s : Runner Hook Chat Data := run step (start hidden) steps
    s.microtasks = [] → s.Eligible chatId →
      s.tab.ticking = true ∧ (s.tab.checking chatId).isSome = true ∨ s.pending = true ∨
        s.safetyNetInterval = true

/-- A chat that becomes eligible by a step that schedules a tick is examined by that tick. -/
def ChatsUncoupled (Hook : Type w) (Chat : Type u) (Data : Type v) [DecidableEq Hook]
    [DecidableEq Chat] : Prop :=
  ∀ hidden steps next chatId, let s : Runner Hook Chat Data := run step (start hidden) steps
    s.microtasks = [] → ¬s.Eligible chatId → (s.step next).Eligible chatId →
      (s.step next).pending = true →
        ∃ chatIds, ((s.step next).step .microtask).ticks = (s.step next).ticks ++ [chatIds] ∧
          chatId ∈ chatIds

/-- What holds of the wake-ups of a runner by its design: the interval pauses while the tab is
hidden, and the return to the tab asks for a tick; a tick that runs ends; and while none runs each
request is followed at once by a tick for all chats with a queue. -/
structure WokenUp (s : Runner Hook Chat Data) : Prop where
  /-- The interval is armed exactly while the tab is visible. -/
  armed : s.safetyNetInterval = !s.hidden
  /-- A scheduled tick is among the microtasks, once. -/
  scheduled : s.microtasks.count .tick = if s.pending then 1 else 0
  /-- A tick that runs waits for a call of `drainOne` that has not returned. -/
  ends : s.microtasks = [] → s.tab.ticking = true → s.tab.draining ≠ []
  /-- A request is followed by a tick that examines every eligible chat. -/
  examines : s.microtasks = [] → s.tab.ticking = false → ∀ next, s.Asks next →
    ∃ chatIds, ((s.step next).step .microtask).ticks = (s.step next).ticks ++ [chatIds] ∧
      ∀ chatId, (s.step next).Eligible chatId → chatId ∈ chatIds
  /-- A chat becomes eligible by a step that asks for a tick, or by the server alone. -/
  becomes : s.microtasks = [] → ∀ next chatId, ¬s.Eligible chatId →
    (s.step next).Eligible chatId → s.Asks next ∨ ∃ isRunning, next = .server chatId isRunning

section

variable {s : Runner Hook Chat Data}

omit [DecidableEq Hook] in
theorem scheduleTick_of_quiet (h : s.Counted) (hquiet : s.microtasks = []) :
    s.scheduleTick = { s with pending := true, microtasks := [.tick] } := by
  have hpending := h.pending
  rw [hquiet] at hpending
  unfold scheduleTick
  split
  · next hscheduled =>
    rw [hscheduled] at hpending
    cases hpending
  · rw [hquiet]
    rfl

omit [DecidableEq Hook] in
/-- A tick that starts while none runs examines all chats with a queue. -/
theorem ticks_tick (hidle : s.tab.ticking = false) :
    s.tick.ticks = s.ticks ++ [s.tab.getAllChatsWithQueue] := by
  unfold tick
  rw [if_neg (by rw [hidle]; exact Bool.false_ne_true)]

omit [DecidableEq Hook] [DecidableEq Chat] in
theorem tab_scheduleTick (s : Runner Hook Chat Data) : s.scheduleTick.tab = s.tab := by
  unfold scheduleTick
  split <;> rfl

omit [DecidableEq Hook] [DecidableEq Chat] in
theorem isRunning_scheduleTick (s : Runner Hook Chat Data) :
    s.scheduleTick.isRunning = s.isRunning := by
  unfold scheduleTick
  split <;> rfl

omit [DecidableEq Hook] in
theorem eligible_scheduleTick {chatId : Chat} (h : s.scheduleTick.Eligible chatId) :
    s.Eligible chatId := by
  rw [Eligible, tab_scheduleTick, isRunning_scheduleTick] at h
  exact h

theorem tab_perform (s : Runner Hook Chat Data) (event : Event Hook Chat Data) :
    (s.perform event).tab = s.tab.step event := rfl

theorem isRunning_perform (s : Runner Hook Chat Data) (event : Event Hook Chat Data) :
    (s.perform event).isRunning = s.isRunning := by
  unfold perform
  dsimp only
  split
  · exact isRunning_scheduleTick s
  · rfl

/-- After a request that finds no tick running the next microtask is a tick. -/
theorem step_of_asks (h : s.Counted) (hquiet : s.microtasks = [])
    (hidle : s.tab.ticking = false) {next : RunnerStep Hook Chat Data} (hasks : s.Asks next) :
    (s.step next).microtasks = [.tick] ∧ (s.step next).tab.ticking = false := by
  cases next with
  | tab event =>
    have hevent : event.Within := by
      cases event with
      | tick | tickEnd => cases hasks
      | enqueueMessage | removeFromQueue | clearQueue | reorderQueue | mount | unmount
      | drainEffect | directSend | answer | bodyEnd | status => trivial
    have hstep : s.step (.tab event) = s.perform event := by
      cases event with
      | tick | tickEnd => exact hevent.elim
      | enqueueMessage | removeFromQueue | clearQueue | reorderQueue | mount | unmount
      | drainEffect | directSend | answer | bodyEnd | status => exact if_pos hquiet
    have hsame := Tab.SameTick.step s.tab hevent
    rw [hstep]
    refine ⟨?_, hsame.ticking.trans hidle⟩
    unfold perform
    rw [if_pos (show s.tab.asksForTick event = true from hasks), scheduleTick_of_quiet h hquiet,
      (h.idle hidle).1]
    dsimp only
    rw [List.length_nil, Nat.zero_sub]
    rfl
  | cache chatId isRunning =>
    have hcached : Counted { s with cached := Function.update s.cached chatId isRunning } :=
      ⟨h.armed, h.pending, h.idle, h.busy⟩
    dsimp only [step, receive]
    rw [if_pos hquiet, scheduleTick_of_quiet hcached hquiet]
    exact ⟨rfl, hidle⟩
  | interval =>
    dsimp only [step, receive]
    rw [if_pos hquiet, if_pos (show s.safetyNetInterval = true from hasks),
      scheduleTick_of_quiet h hquiet]
    exact ⟨rfl, hidle⟩
  | visibilitychange hidden =>
    obtain rfl : hidden = false := hasks
    dsimp only [step, receive, onVisibilityChange]
    rw [if_pos hquiet, scheduleTick_of_quiet h hquiet]
    exact ⟨rfl, hidle⟩
  | server | microtask => exact hasks.elim

/-- Only the server makes a chat eligible without asking for a tick. -/
theorem asks_of_becomes (hquiet : s.microtasks = []) {next : RunnerStep Hook Chat Data}
    {chatId : Chat} (hbefore : ¬s.Eligible chatId) (hafter : (s.step next).Eligible chatId) :
    s.Asks next ∨ ∃ isRunning, next = .server chatId isRunning := by
  cases next with
  | tab event =>
    have hperform (hevent : event.Within) (hstep : s.step (.tab event) = s.perform event) :
        s.Asks (.tab event) := by
      cases hasks : s.tab.asksForTick event with
      | true => exact hasks
      | false =>
        rw [hstep, Eligible, tab_perform, isRunning_perform] at hafter
        exact absurd ⟨hafter.1.of_step hevent hasks, hafter.2⟩ hbefore
    cases event with
    | tick | tickEnd =>
      dsimp only [step, receive] at hafter
      rw [if_pos hquiet] at hafter
      exact absurd hafter hbefore
    | enqueueMessage | removeFromQueue | clearQueue | reorderQueue | mount | unmount
    | drainEffect | directSend | answer | bodyEnd | status =>
      exact .inl (hperform trivial (if_pos hquiet))
  | cache => exact .inl trivial
  | server other isRunning =>
    by_cases hsame : chatId = other
    · exact .inr ⟨isRunning, by rw [hsame]⟩
    · dsimp only [step, receive] at hafter
      rw [if_pos hquiet] at hafter
      have hrunning : Function.update s.isRunning other isRunning chatId = false := hafter.2
      rw [Function.update_of_ne hsame] at hrunning
      exact absurd ⟨hafter.1, hrunning⟩ hbefore
  | interval =>
    dsimp only [step, receive] at hafter
    rw [if_pos hquiet] at hafter
    split at hafter
    · exact absurd (eligible_scheduleTick hafter) hbefore
    · exact absurd hafter hbefore
  | visibilitychange hidden =>
    dsimp only [step, receive, onVisibilityChange] at hafter
    rw [if_pos hquiet] at hafter
    split at hafter
    · exact absurd ⟨hafter.1, hafter.2⟩ hbefore
    · have hscheduled : s.scheduleTick.Eligible chatId := ⟨hafter.1, hafter.2⟩
      exact absurd (eligible_scheduleTick hscheduled) hbefore
  | microtask =>
    dsimp only [step, runMicrotask] at hafter
    rw [hquiet] at hafter
    exact absurd hafter hbefore

theorem wokenUp_of_counted (h : s.Counted) : s.WokenUp where
  armed := h.armed
  scheduled := h.pending
  ends hquiet hticking hnone := by
    obtain ⟨hunhandled, hsettled⟩ := h.busy hticking
    rw [hquiet, hnone] at hunhandled
    have hzero : s.unhandled = 0 := hunhandled
    rw [hquiet, if_pos hzero] at hsettled
    cases hsettled
  examines hquiet hidle next hasks := by
    obtain ⟨hmicrotasks, hstill⟩ := step_of_asks h hquiet hidle hasks
    refine ⟨(s.step next).tab.getAllChatsWithQueue, ?_, fun chatId heligible ↦
      heligible.1.mem_getAllChatsWithQueue⟩
    generalize s.step next = t at hmicrotasks hstill
    have hidle' : { t with pending := false, microtasks := [] }.tab.ticking = false := hstill
    have hstep : t.step .microtask = tick { t with pending := false, microtasks := [] } := by
      dsimp only [step, runMicrotask]
      rw [hmicrotasks]
    rw [hstep]
    exact ticks_tick hidle'
  becomes hquiet _ _ := asks_of_becomes hquiet

end

/-- The turn of chat 0 streams, and a message is queued for chat 1, whose tick does nothing. -/
def coupledSteps : List (RunnerStep Unit ℕ Unit) :=
  [.microtask, .microtask, .tab (.enqueueMessage 0 ()), .microtask, .tab (.status 0 .idle),
    .microtask]

/-- The turn of chat 0 ends: the tick that its drain asks for comes before the end of the tick that
has waited for it, and does nothing. -/
def lostSteps : List (RunnerStep Unit ℕ Unit) :=
  coupledSteps ++ [.tab (.enqueueMessage 1 ()), .microtask,
    .tab (.answer (.runner 0) (.success true)), .microtask, .tab (.bodyEnd (.runner 0)),
    .microtask, .microtask, .microtask]

end Runner

end Flockctl.ChatQueue
