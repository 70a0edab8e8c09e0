import Flockctl.ChatQueue.Tab
import Flockctl.Transition.Run

/-!
# A queued message is sent at most once and in order

The queue of a chat has two readers, and what keeps them apart is the mark of a drain in flight. The
runner looks at the mark before it sends. A hook does not: the run is in order when a hook starts a
request for a chat only while none is under way for it.
-/

namespace Flockctl.ChatQueue

open Collections Transition

universe u v w

namespace Tab

/-! ## What is in the queues -/

section

variable {Hook : Type w} {Chat : Type u} {Data : Type v} [DecidableEq Chat]
  {s : Tab Hook Chat Data}

theorem getQueue_enqueueMessage (chatId other : Chat) (data : Data) :
    (s.enqueueMessage chatId data).getQueue other =
      if other = chatId then s.getQueue chatId ++ [⟨s.counter + 1, chatId, data⟩]
      else s.getQueue other := by
  rw [getQueue, enqueueMessage, JsMap.get_set]
  split
  · rfl
  · rfl

theorem getQueue_removeFromQueue (id : ℕ) (chatId : Chat) :
    (s.removeFromQueue id).getQueue chatId = (s.getQueue chatId).filter (·.id ≠ id) := by
  rw [getQueue, removeFromQueue, JsMap.get_filter, JsMap.get_mapWithKey, getQueue]
  cases s.queues.get chatId with
  | none => rfl
  | some list =>
    rw [Option.map_some, Option.filter_some, Option.getD_some]
    cases hlist : list.filter fun entry ↦ decide (entry.id ≠ id) with
    | nil => rfl
    | cons first rest => rfl

theorem getQueue_clearQueue (chatId other : Chat) :
    (s.clearQueue chatId).getQueue other = if other = chatId then [] else s.getQueue other := by
  rw [getQueue, clearQueue, JsMap.get_delete]
  split
  · rfl
  · rfl

/-- Moving an entry changes the order of its queue only. -/
theorem mem_getQueue_reorderQueue (chatId other : Chat) (fromIndex toIndex : ℕ)
    (entry : QueuedChatMessage Chat Data) :
    entry ∈ (s.reorderQueue chatId fromIndex toIndex).getQueue other ↔
      entry ∈ s.getQueue other := by
  rw [reorderQueue]
  split
  · exact Iff.rfl
  next hvalid =>
    simp only [Bool.or_eq_true, decide_eq_true_iff, not_or, Nat.not_le] at hvalid
    split
    · exact Iff.rfl
    next moved hmoved =>
      rw [getQueue, JsMap.get_set]
      split
      next hother =>
        rw [hother, Option.getD_some, List.mem_insertIdx (by
          rw [List.length_eraseIdx]
          split <;> omega), List.mem_eraseIdx_iff_getElem?, List.mem_iff_getElem?]
        constructor
        · rintro (rfl | ⟨index, -, hindex⟩)
          · exact ⟨fromIndex, hmoved⟩
          · exact ⟨index, hindex⟩
        · rintro ⟨index, hindex⟩
          by_cases hsame : index = fromIndex
          · left
            rw [hsame, hmoved] at hindex
            exact (Option.some.inj hindex).symm
          · exact Or.inr ⟨index, hsame, hindex⟩
      · exact Iff.rfl

theorem mem_queuedIds_iff (chatId : Chat) (id : ℕ) :
    id ∈ s.queuedIds chatId ↔ ∃ entry ∈ s.getQueue chatId, entry.id = id := by
  rw [queuedIds, List.mem_map]

/-- An id that has been given to another entry before was queued before. -/
theorem mem_queuedIds_of_enqueueMessage {chatId other : Chat} {data : Data} {id : ℕ}
    (hid : id ≤ s.counter) (h : id ∈ (s.enqueueMessage chatId data).queuedIds other) :
    id ∈ s.queuedIds other := by
  rw [queuedIds, getQueue_enqueueMessage] at h
  split at h
  next hother =>
    rw [List.map_append, List.mem_append] at h
    rcases h with hold | hnew
    · exact hother ▸ hold
    · have heq : id = s.counter + 1 := List.mem_singleton.mp hnew
      omega
  · exact h

theorem head?_queuedIds (chatId : Chat) :
    (s.queuedIds chatId).head? = (s.peekHead chatId).map (·.id) := by
  rw [queuedIds, peekHead, List.head?_map]

end

/-! ## Order among the requests -/

section

variable {Hook : Type w} {Chat : Type u} {Data : Type v} [DecidableEq Chat]
  {s : Tab Hook Chat Data} {home : ℕ → Option Chat} {gone : ℕ → Prop}

/-- At most one request for a chat is under way, and the drain of its chat is marked. An id belongs
to one chat. A request for an entry was made when the entry stood first; once the server has
accepted it the entry is queued no more, and was not when a later request for the chat was made. An
id that is gone is neither queued nor under way. -/
structure Orderly (s : Tab Hook Chat Data) (home : ℕ → Option Chat) (gone : ℕ → Prop) : Prop where
  marked : ∀ sender send, s.sends sender = some send → s.inFlightDrains send.chatId = true
  single : ∀ a b first second, s.sends a = some first → s.sends b = some second →
    first.chatId = second.chatId → a = b
  runner : ∀ chatId send, s.sends (.runner chatId) = some send → send.chatId = chatId
  keyed : ∀ chatId, ∀ entry ∈ s.getQueue chatId,
    entry.chatId = chatId ∧ entry.id ≤ s.counter ∧ home entry.id = some chatId
  flying : ∀ sender send, s.sends sender = some send → ∀ id ∈ send.queueEntryId,
    id ≤ s.counter ∧ home id = some send.chatId ∧ send.queued.head? = some id
  served : ∀ send ∈ s.server, ∀ id ∈ send.queueEntryId,
    id ≤ s.counter ∧ home id = some send.chatId ∧ send.queued.head? = some id
  left : ∀ send ∈ s.server, ∀ id ∈ send.queueEntryId, ∀ chatId, id ∉ s.queuedIds chatId
  waiting : ∀ sender send, s.sends sender = some send → send.accepted = false →
    ∀ earlier ∈ s.server, earlier.chatId = send.chatId → ∀ id ∈ earlier.queueEntryId,
      id ∉ send.queued
  ordered : s.server.Pairwise fun earlier later ↦ ∀ id ∈ earlier.queueEntryId,
    id ∉ later.queueEntryId ∧ (earlier.chatId = later.chatId → id ∉ later.queued)
  removed : ∀ id, gone id → id ≤ s.counter ∧ (∀ chatId, id ∉ s.queuedIds chatId) ∧
    ∀ sender send, s.sends sender = some send → id ∉ send.queueEntryId

theorem orderly_initial :
    (initial : Tab Hook Chat Data).Orderly (fun _ ↦ none) fun _ ↦ False where
  marked _ _ h := by cases h
  single _ _ _ _ h := by cases h
  runner _ _ h := by cases h
  keyed _ _ h := by cases h
  flying _ _ h := by cases h
  served _ h := by cases h
  left _ h := by cases h
  waiting _ _ h := by cases h
  ordered := List.Pairwise.nil
  removed _ h := h.elim

namespace Orderly

/-- Entries may leave their queues and change places in them. -/
theorem of_subset (h : s.Orderly home gone)
    {queues : JsMap Chat (List (QueuedChatMessage Chat Data))}
    (hsub : ∀ chatId, ({ s with queues := queues }).getQueue chatId ⊆ s.getQueue chatId) :
    ({ s with queues := queues }).Orderly home gone where
  marked := h.marked
  single := h.single
  runner := h.runner
  keyed chatId entry hentry := h.keyed chatId entry (hsub chatId hentry)
  flying := h.flying
  served := h.served
  left send hsend id hid chatId hqueued :=
    h.left send hsend id hid chatId (List.map_subset _ (hsub chatId) hqueued)
  waiting := h.waiting
  ordered := h.ordered
  removed id hid := ⟨(h.removed id hid).1,
    fun chatId hqueued ↦ (h.removed id hid).2.1 chatId (List.map_subset _ (hsub chatId) hqueued),
    (h.removed id hid).2.2⟩

theorem removeFromQueue (h : s.Orderly home gone) (id : ℕ) :
    (s.removeFromQueue id).Orderly home gone := by
  apply h.of_subset
  intro chatId
  calc (s.removeFromQueue id).getQueue chatId
      = (s.getQueue chatId).filter (·.id ≠ id) := getQueue_removeFromQueue id chatId
    _ ⊆ s.getQueue chatId := List.filter_subset_self _

theorem clearQueue (h : s.Orderly home gone) (chatId : Chat) :
    (s.clearQueue chatId).Orderly home gone := by
  apply h.of_subset
  intro other entry hentry
  have hcleared : entry ∈ (s.clearQueue chatId).getQueue other := hentry
  rw [getQueue_clearQueue] at hcleared
  split at hcleared
  · cases hcleared
  · exact hcleared

/-- What else a tab holds does not matter. -/
theorem congr (h : s.Orderly home gone) {other : Tab Hook Chat Data} (hqueues : other.queues = s.queues)
    (hcounter : other.counter = s.counter) (hmarks : other.inFlightDrains = s.inFlightDrains)
    (hsends : other.sends = s.sends) (hserver : other.server = s.server) : other.Orderly home gone := by
  obtain ⟨queues, active, marks, counter, hooks, ticking, draining, checking, sends, server⟩ := other
  dsimp only at hqueues hcounter hmarks hsends hserver
  subst hqueues hcounter hmarks hsends hserver
  exact ⟨h.marked, h.single, h.runner, h.keyed, h.flying, h.served, h.left, h.waiting, h.ordered,
    h.removed⟩

theorem reorderQueue (h : s.Orderly home gone) (chatId : Chat) (fromIndex toIndex : ℕ) :
    (s.reorderQueue chatId fromIndex toIndex).Orderly home gone := by
  have hshape : ∃ queues, s.reorderQueue chatId fromIndex toIndex = { s with queues := queues } := by
    rw [Tab.reorderQueue]
    split
    · exact ⟨s.queues, rfl⟩
    · split
      · exact ⟨s.queues, rfl⟩
      · exact ⟨_, rfl⟩
  obtain ⟨queues, hqueues⟩ := hshape
  rw [hqueues]
  apply h.of_subset
  intro other entry hentry
  rw [← hqueues] at hentry
  exact (mem_getQueue_reorderQueue chatId other fromIndex toIndex entry).mp hentry

/-- A new entry has a new id. -/
theorem enqueueMessage (h : s.Orderly home gone) (chatId : Chat) (data : Data) :
    (s.enqueueMessage chatId data).Orderly
      (Function.update home (s.counter + 1) (some chatId)) gone := by
  have hhome {id : ℕ} (hid : id ≤ s.counter) :
      Function.update home (s.counter + 1) (some chatId) id = home id :=
    Function.update_of_ne (by omega) _ _
  have hsend {send : Send Chat Data} {id : ℕ}
      (hold : id ≤ s.counter ∧ home id = some send.chatId ∧ send.queued.head? = some id) :
      id ≤ s.counter + 1 ∧ Function.update home (s.counter + 1) (some chatId) id = some send.chatId ∧
        send.queued.head? = some id :=
    ⟨by omega, (hhome hold.1).trans hold.2.1, hold.2.2⟩
  exact {
    marked := h.marked
    single := h.single
    runner := h.runner
    keyed := by
      intro other entry hentry
      rw [getQueue_enqueueMessage] at hentry
      have hold (hqueued : entry ∈ s.getQueue other) : entry.chatId = other ∧
          entry.id ≤ s.counter + 1 ∧
            Function.update home (s.counter + 1) (some chatId) entry.id = some other := by
        obtain ⟨hkey, hid, hentryHome⟩ := h.keyed other entry hqueued
        exact ⟨hkey, by omega, (hhome hid).trans hentryHome⟩
      split at hentry
      next hother =>
        rcases List.mem_append.mp hentry with hqueued | hnew
        · exact hold (hother ▸ hqueued)
        · rw [List.mem_singleton.mp hnew]
          exact ⟨hother.symm, Nat.le_refl _,
            (Function.update_self _ _ _).trans (congrArg some hother.symm)⟩
      · exact hold hentry
    flying := fun sender send hsends id hid ↦ hsend (h.flying sender send hsends id hid)
    served := fun send hserved id hid ↦ hsend (h.served send hserved id hid)
    left := fun send hserved id hid other hqueued ↦ h.left send hserved id hid other
      (mem_queuedIds_of_enqueueMessage (h.served send hserved id hid).1 hqueued)
    waiting := h.waiting
    ordered := h.ordered
    removed := fun id hid ↦ ⟨Nat.le_succ_of_le (h.removed id hid).1,
      fun other hqueued ↦ (h.removed id hid).2.1 other
        (mem_queuedIds_of_enqueueMessage (h.removed id hid).1 hqueued), (h.removed id hid).2.2⟩ }

/-- The entries of the requests that the server has accepted before are not those of a request that
waits, nor in the queue this was taken from. -/
theorem fresh (h : s.Orderly home gone) {sender : Sender Hook Chat} {send : Send Chat Data}
    (hsend : s.sends sender = some send)
    (hwaits : send.accepted = false) {earlier : Send Chat Data} (hearlier : earlier ∈ s.server)
    {id : ℕ} (hid : id ∈ earlier.queueEntryId) :
    id ∉ send.queueEntryId ∧ (earlier.chatId = send.chatId → id ∉ send.queued) := by
  have hqueued (hsame : earlier.chatId = send.chatId) : id ∉ send.queued :=
    h.waiting sender send hsend hwaits earlier hearlier hsame id hid
  refine ⟨fun hown ↦ ?_, hqueued⟩
  obtain ⟨-, hhome, hhead⟩ := h.flying sender send hsend id hown
  have hsame : earlier.chatId = send.chatId :=
    Option.some.inj ((h.served earlier hearlier id hid).2.1.symm.trans hhome)
  exact hqueued hsame (List.mem_of_mem_head? hhead)

theorem ordered_append (h : s.Orderly home gone) {sender : Sender Hook Chat} {send : Send Chat Data}
    (hsend : s.sends sender = some send)
    (hwaits : send.accepted = false) :
    (s.server ++ [send]).Pairwise fun earlier later ↦ ∀ id ∈ earlier.queueEntryId,
      id ∉ later.queueEntryId ∧ (earlier.chatId = later.chatId → id ∉ later.queued) := by
  rw [List.pairwise_append]
  refine ⟨h.ordered, List.pairwise_singleton _ _, fun earlier hearlier later hlater id hid ↦ ?_⟩
  rw [List.mem_singleton.mp hlater]
  exact h.fresh hsend hwaits hearlier hid

end Orderly

end

section

variable {Hook : Type w} {Chat : Type u} {Data : Type v} [DecidableEq Hook] [DecidableEq Chat]
  {s : Tab Hook Chat Data} {home : ℕ → Option Chat} {gone : ℕ → Prop} {sender : Sender Hook Chat}
  {send : Send Chat Data}

/-- What is under way after one request has changed. -/
theorem sends_update {change : Option (Send Chat Data)} {other : Sender Hook Chat}
    {found : Send Chat Data} (h : Function.update s.sends sender change other = some found) :
    other = sender ∧ change = some found ∨ other ≠ sender ∧ s.sends other = some found := by
  rw [Function.update_apply] at h
  split at h
  next hsame => exact Or.inl ⟨hsame, h⟩
  next hne => exact Or.inr ⟨hne, h⟩

namespace Orderly

/-- A request is made while none is under way for the chat, for the entry that stands first. -/
theorem sendFrom (h : s.Orderly home gone) {chatId : Chat} {data : Data} {queueEntryId : Option ℕ}
    (hfree : s.inFlightDrains chatId = false) (hrunner : ∀ own, sender = .runner own → own = chatId)
    (hhead : ∀ id ∈ queueEntryId, (s.queuedIds chatId).head? = some id) :
    (s.sendFrom sender chatId data queueEntryId).Orderly home gone := by
  have hother {a : Sender Hook Chat} {found : Send Chat Data} (hfound : s.sends a = some found) :
      found.chatId ≠ chatId := by
    intro hsame
    have hmarked := h.marked a found hfound
    rw [hsame, hfree] at hmarked
    cases hmarked
  have hentry {id : ℕ} (hid : id ∈ queueEntryId) :
      ∃ entry ∈ s.getQueue chatId, entry.id = id :=
    (mem_queuedIds_iff chatId id).mp (List.mem_of_mem_head? (hhead id hid))
  exact {
    marked := by
      intro a found hfound
      rcases sends_update hfound with ⟨-, hnew⟩ | ⟨-, hold⟩
      · rw [← Option.some.inj hnew]
        exact Function.update_self _ _ _
      · exact (Function.update_of_ne (hother hold) _ _).trans (h.marked a found hold)
    single := by
      intro a b first second hfirst hsecond hsame
      rcases sends_update hfirst with ⟨ha, hnew⟩ | ⟨-, hold⟩
      · rcases sends_update hsecond with ⟨hb, -⟩ | ⟨-, hb⟩
        · exact ha.trans hb.symm
        · rw [← Option.some.inj hnew] at hsame
          exact absurd hsame.symm (hother hb)
      · rcases sends_update hsecond with ⟨-, hnew⟩ | ⟨-, hb⟩
        · rw [← Option.some.inj hnew] at hsame
          exact absurd hsame (hother hold)
        · exact h.single a b first second hold hb hsame
    runner := by
      intro own found hfound
      rcases sends_update hfound with ⟨hsender, hnew⟩ | ⟨-, hold⟩
      · rw [← Option.some.inj hnew]
        exact (hrunner own hsender.symm).symm
      · exact h.runner own found hold
    keyed := h.keyed
    flying := by
      intro a found hfound id hid
      rcases sends_update hfound with ⟨-, hnew⟩ | ⟨-, hold⟩
      · rw [← Option.some.inj hnew] at hid ⊢
        obtain ⟨entry, hqueued, rfl⟩ := hentry hid
        obtain ⟨-, hbound, hhome⟩ := h.keyed chatId entry hqueued
        exact ⟨hbound, hhome, hhead entry.id hid⟩
      · exact h.flying a found hold id hid
    served := h.served
    left := h.left
    waiting := by
      intro a found hfound hwaits earlier hearlier hsame id hid
      rcases sends_update hfound with ⟨-, hnew⟩ | ⟨-, hold⟩
      · rw [← Option.some.inj hnew]
        exact h.left earlier hearlier id hid chatId
      · exact h.waiting a found hold hwaits earlier hearlier hsame id hid
    ordered := h.ordered
    removed := by
      intro id hid
      obtain ⟨hbound, hqueued, hsends⟩ := h.removed id hid
      refine ⟨hbound, hqueued, fun a found hfound hown ↦ ?_⟩
      rcases sends_update hfound with ⟨-, hnew⟩ | ⟨-, hold⟩
      · rw [← Option.some.inj hnew] at hown
        exact hqueued chatId (List.mem_of_mem_head? (hhead id hown))
      · exact hsends a found hold hown }

/-- The request of a chat comes to its end. -/
theorem releaseSend (h : s.Orderly home gone) (hsend : s.sends sender = some send) :
    (s.releaseSend sender send.chatId).Orderly home gone := by
  have hold {a : Sender Hook Chat} {found : Send Chat Data}
      (hfound : (s.releaseSend sender send.chatId).sends a = some found) :
      a ≠ sender ∧ s.sends a = some found := by
    rcases sends_update hfound with ⟨-, hnone⟩ | hother
    · cases hnone
    · exact hother
  exact {
    marked := by
      intro a found hfound
      obtain ⟨hne, hfound⟩ := hold hfound
      have hchat : found.chatId ≠ send.chatId := fun hsame ↦
        hne (h.single a sender found send hfound hsend hsame)
      exact (Function.update_of_ne hchat _ _).trans (h.marked a found hfound)
    single := fun a b first second hfirst hsecond hsame ↦
      h.single a b first second (hold hfirst).2 (hold hsecond).2 hsame
    runner := fun own found hfound ↦ h.runner own found (hold hfound).2
    keyed := h.keyed
    flying := fun a found hfound ↦ h.flying a found (hold hfound).2
    served := h.served
    left := h.left
    waiting := fun a found hfound ↦ h.waiting a found (hold hfound).2
    ordered := h.ordered
    removed := fun id hid ↦ ⟨(h.removed id hid).1, (h.removed id hid).2.1,
      fun a found hfound ↦ (h.removed id hid).2.2 a found (hold hfound).2⟩ }

/-- The server accepts a request whose entry is queued no more. -/
theorem accept (h : s.Orderly home gone) (hsend : s.sends sender = some send)
    (hwaits : send.accepted = false)
    (hgone : ∀ id ∈ send.queueEntryId, ∀ chatId, id ∉ s.queuedIds chatId) :
    ({ s with
      sends := Function.update s.sends sender (some { send with accepted := true })
      server := s.server ++ [send] }).Orderly home gone := by
  have hold {a : Sender Hook Chat} {found : Send Chat Data}
      (hfound : Function.update s.sends sender (some { send with accepted := true }) a =
        some found) :
      ∃ before, s.sends a = some before ∧ found.chatId = before.chatId ∧
        found.queueEntryId = before.queueEntryId ∧ found.queued = before.queued ∧
          (found.accepted = false → a ≠ sender ∧ before.accepted = false) := by
    rcases sends_update hfound with ⟨rfl, hnew⟩ | ⟨hne, hfound⟩
    · rw [← Option.some.inj hnew]
      exact ⟨send, hsend, rfl, rfl, rfl, nofun⟩
    · exact ⟨found, hfound, rfl, rfl, rfl, fun hwaiting ↦ ⟨hne, hwaiting⟩⟩
  have hserved {found : Send Chat Data} (hfound : found ∈ s.server ++ [send]) :
      found ∈ s.server ∨ found = send := by
    simpa using hfound
  exact {
    marked := by
      intro a found hfound
      obtain ⟨before, hbefore, hchat, -⟩ := hold hfound
      rw [hchat]
      exact h.marked a before hbefore
    single := by
      intro a b first second hfirst hsecond hsame
      obtain ⟨before, hbefore, hchat, -⟩ := hold hfirst
      obtain ⟨other, hother, hotherChat, -⟩ := hold hsecond
      exact h.single a b before other hbefore hother (by rw [← hchat, hsame, hotherChat])
    runner := by
      intro own found hfound
      obtain ⟨before, hbefore, hchat, -⟩ := hold hfound
      rw [hchat]
      exact h.runner own before hbefore
    keyed := h.keyed
    flying := by
      intro a found hfound id hid
      obtain ⟨before, hbefore, hchat, hentry, hqueued, -⟩ := hold hfound
      rw [hentry] at hid
      rw [hchat, hqueued]
      exact h.flying a before hbefore id hid
    served := by
      intro found hfound
      rcases hserved hfound with hbefore | rfl
      · exact h.served found hbefore
      · exact h.flying sender found hsend
    left := by
      intro found hfound
      rcases hserved hfound with hbefore | rfl
      · exact h.left found hbefore
      · exact hgone
    waiting := by
      intro a found hfound hwaiting earlier hearlier hsame id hid
      obtain ⟨before, hbefore, hchat, -, hqueued, hwaits⟩ := hold hfound
      obtain ⟨hne, hwaits⟩ := hwaits hwaiting
      rw [hqueued]
      rw [hchat] at hsame
      rcases hserved hearlier with hearlier | rfl
      · exact h.waiting a before hbefore hwaits earlier hearlier hsame id hid
      · exact absurd (h.single a sender before earlier hbefore hsend hsame.symm) hne
    ordered := h.ordered_append hsend hwaits
    removed := by
      intro id hid
      obtain ⟨hbound, hqueued, hsends⟩ := h.removed id hid
      refine ⟨hbound, hqueued, fun a found hfound ↦ ?_⟩
      obtain ⟨before, hbefore, -, hentry, -, -⟩ := hold hfound
      rw [hentry]
      exact hsends a before hbefore }

omit [DecidableEq Hook] in
/-- The server accepts a request without a body, that has no entry in the queue. -/
theorem serve (h : s.Orderly home gone) (hsend : s.sends sender = some send)
    (hwaits : send.accepted = false) (hentry : send.queueEntryId = none) :
    ({ s with server := s.server ++ [send] }).Orderly home gone := by
  have hserved {found : Send Chat Data} (hfound : found ∈ s.server ++ [send]) {id : ℕ}
      (hid : id ∈ found.queueEntryId) : found ∈ s.server := by
    rcases List.mem_append.mp hfound with hbefore | hnew
    · exact hbefore
    · rw [List.mem_singleton.mp hnew, hentry] at hid
      cases hid
  exact {
    marked := h.marked
    single := h.single
    runner := h.runner
    keyed := h.keyed
    flying := h.flying
    served := fun found hfound id hid ↦ h.served found (hserved hfound hid) id hid
    left := fun found hfound id hid ↦ h.left found (hserved hfound hid) id hid
    waiting := fun a found hfound hwaiting earlier hearlier hsame id hid ↦
      h.waiting a found hfound hwaiting earlier (hserved hearlier hid) hsame id hid
    ordered := h.ordered_append hsend hwaits
    removed := h.removed }

omit [DecidableEq Hook] in
theorem removeEntry (h : s.Orderly home gone) (queueEntryId : Option ℕ) :
    (s.removeEntry queueEntryId).Orderly home gone := by
  cases queueEntryId with
  | none => exact h
  | some id => exact h.removeFromQueue id

/-- The server accepts a request, whose entry leaves the queue. -/
theorem acceptSend (h : s.Orderly home gone) (hsend : s.sends sender = some send)
    (hwaits : send.accepted = false) : (s.acceptSend sender send).Orderly home gone := by
  have hremoved := h.removeEntry send.queueEntryId
  have hsends : (s.removeEntry send.queueEntryId).sends = s.sends := by
    cases send.queueEntryId <;> rfl
  have hserver : (s.removeEntry send.queueEntryId).server = s.server := by
    cases send.queueEntryId <;> rfl
  have hgone : ∀ id ∈ send.queueEntryId, ∀ chatId,
      id ∉ (s.removeEntry send.queueEntryId).queuedIds chatId := by
    intro id hid chatId hqueued
    rw [Option.mem_def.mp hid] at hqueued
    obtain ⟨entry, hentry, hentryId⟩ := (mem_queuedIds_iff chatId id).mp hqueued
    have hkept : entry ∈ (s.removeFromQueue id).getQueue chatId := hentry
    rw [getQueue_removeFromQueue] at hkept
    exact absurd hentryId (of_decide_eq_true (List.mem_filter.mp hkept).2)
  have haccepted := hremoved.accept (hsends ▸ hsend) hwaits hgone
  rw [hsends, hserver] at haccepted
  exact haccepted

omit [DecidableEq Hook] in
theorem withHooks (h : s.Orderly home gone) (hooks : Hook → ChatStream Chat) :
    ({ s with hooks := hooks }).Orderly home gone := h.congr rfl rfl rfl rfl rfl

omit [DecidableEq Hook] in
theorem withDrains (h : s.Orderly home gone) (draining : List Chat)
    (checking : Chat → Option (QueuedChatMessage Chat Data)) :
    ({ s with draining := draining, checking := checking }).Orderly home gone :=
  h.congr rfl rfl rfl rfl rfl

theorem startStream (h : s.Orderly home gone) {hook : Hook} {chatId : Chat} {data : Data}
    {queueEntryId : Option ℕ} (hfree : s.inFlightDrains chatId = false)
    (hhead : ∀ id ∈ queueEntryId, (s.queuedIds chatId).head? = some id) :
    (s.startStream hook chatId data queueEntryId).Orderly home gone := by
  have hrunner : ∀ own, (.hook hook : Sender Hook Chat) = .runner own → own = chatId := by
    intro own hown
    cases hown
  rw [Tab.startStream]
  exact (h.withHooks _).sendFrom hfree hrunner hhead

theorem finishStream (h : s.Orderly home gone) {hook : Hook}
    (hsend : s.sends (.hook hook) = some send) :
    (s.finishStream hook send).Orderly home gone := by
  rw [Tab.finishStream]
  exact (h.withHooks _).releaseSend hsend

theorem finishDrain (h : s.Orderly home gone) {chatId : Chat}
    (hsend : s.sends (.runner chatId) = some send) : (s.finishDrain chatId).Orderly home gone := by
  have hchat : send.chatId = chatId := h.runner chatId send hsend
  have hreleased := (h.withDrains (s.draining.filter (· ≠ chatId)) s.checking).releaseSend hsend
  rw [hchat] at hreleased
  exact hreleased

end Orderly

/-! ## One event -/

/-- A hook starts a request only while none is under way for its chat, and a request for an entry of
the queue does not succeed without a body. -/
def allowed (s : Tab Hook Chat Data) : Event Hook Chat Data → Prop
  | .drainEffect hook render => ∀ head ∈ s.effectHead hook render,
      s.inFlightDrains head.chatId = false
  | .directSend hook _ => ∀ chatId ∈ s.directChat hook, s.inFlightDrains chatId = false
  | .answer (.hook hook) (.success false) => ∀ send ∈ s.sends (.hook hook),
      send.queueEntryId = none
  | _ => True

theorem Orderly.drainEffect (h : s.Orderly home gone) {hook : Hook} {render : Render}
    (hallowed : s.allowed (.drainEffect hook render)) :
    (s.drainEffect hook render).Orderly home gone := by
  rw [Tab.drainEffect]
  cases hhead : s.effectHead hook render with
  | none => exact h
  | some head =>
    have hfree : s.inFlightDrains head.chatId = false := hallowed head hhead
    obtain ⟨chatId, hpeek⟩ : ∃ chatId, s.peekHead chatId = some head := by
      rw [effectHead] at hhead
      split at hhead
      · cases hhead
      · have hfound := (Option.filter_eq_some_iff.mp hhead).1
        obtain ⟨chatId, -, hpeek⟩ := Option.bind_eq_some_iff.mp hfound
        exact ⟨chatId, hpeek⟩
    have hkey : head.chatId = chatId :=
      (h.keyed chatId head (List.mem_of_mem_head? hpeek)).1
    have hfirst : (s.queuedIds head.chatId).head? = some head.id := by
      rw [head?_queuedIds, hkey, hpeek]
      rfl
    refine (h.withHooks _).startStream hfree fun id hid ↦ ?_
    rw [← Option.mem_some.mp hid]
    exact hfirst

theorem Orderly.directSend (h : s.Orderly home gone) {hook : Hook} {data : Data}
    (hallowed : s.allowed (.directSend hook data)) :
    ∃ home, (s.directSend hook data).Orderly home gone := by
  rw [Tab.directSend]
  split
  next chatId hchat hmounted =>
    split
    · exact ⟨_, h.enqueueMessage chatId data⟩
    next hidle =>
      have hfree : s.inFlightDrains chatId = false := by
        apply hallowed chatId
        rw [directChat, hmounted, Bool.eq_false_iff.mpr hidle]
        exact hchat
      exact ⟨home, h.startStream hfree fun id hid ↦ absurd hid (Option.not_mem_none id)⟩
  · exact ⟨home, h⟩

theorem Orderly.answer (h : s.Orderly home gone) {found : Answer}
    (hallowed : s.allowed (.answer sender found)) : (s.answer sender found).Orderly home gone := by
  rw [Tab.answer]
  cases hsend : s.sends sender with
  | none => exact h
  | some send =>
    dsimp only
    split
    · exact h
    next haccepted =>
      have hwaits : send.accepted = false := Bool.eq_false_iff.mpr haccepted
      cases sender with
      | hook hook =>
        cases found with
        | success body =>
          cases body with
          | true => exact h.acceptSend hsend hwaits
          | false => exact (h.serve hsend hwaits (hallowed send hsend)).finishStream hsend
        | rejected status => exact h.finishStream hsend
        | failed => exact h.finishStream hsend
      | runner chatId =>
        cases found with
        | success body => exact h.acceptSend hsend hwaits
        | rejected status =>
          have hremoved := h.removeEntry send.queueEntryId
          have hkept : (s.removeEntry send.queueEntryId).sends (.runner chatId) = some send := by
            rw [← hsend]
            cases send.queueEntryId <;> rfl
          dsimp only [answerRunner]
          split
          · exact hremoved.finishDrain hkept
          · exact h.finishDrain hsend
        | failed => exact h.finishDrain hsend

theorem Orderly.bodyEnd (h : s.Orderly home gone) : (s.bodyEnd sender).Orderly home gone := by
  rw [Tab.bodyEnd]
  cases hsend : s.sends sender with
  | none => exact h
  | some send =>
    dsimp only
    split
    · cases sender with
      | hook hook => exact h.finishStream hsend
      | runner chatId => exact h.finishDrain hsend
    · exact h

theorem Orderly.status (h : s.Orderly home gone) (chatId : Chat) (found : RunningStatus) :
    (s.status chatId found).Orderly home gone := by
  have hchecked : (s.checked chatId).Orderly home gone := h.congr rfl rfl rfl rfl rfl
  rw [Tab.status]
  cases s.checking chatId with
  | none => exact h
  | some head =>
    cases found with
    | running => exact hchecked
    | notFound => exact hchecked.clearQueue chatId
    | idle =>
      dsimp only
      split
      · exact hchecked
      next hready =>
        simp only [Bool.or_eq_true, decide_eq_true_iff, not_or, Bool.not_eq_true, not_not] at hready
        obtain ⟨⟨hfree, -⟩, hpeek⟩ := hready
        refine (h.withDrains s.draining _).sendFrom hfree (fun own hown ↦ ?_) fun id hid ↦ ?_
        · exact (Sender.runner.inj hown).symm
        · rw [← Option.mem_some.mp hid, ← hpeek]
          exact head?_queuedIds chatId

theorem Orderly.step (h : s.Orderly home gone) (event : Event Hook Chat Data)
    (hallowed : s.allowed event) : ∃ home, (s.step event).Orderly home gone := by
  cases event with
  | enqueueMessage chatId data => exact ⟨_, h.enqueueMessage chatId data⟩
  | removeFromQueue id => exact ⟨home, h.removeFromQueue id⟩
  | clearQueue chatId => exact ⟨home, h.clearQueue chatId⟩
  | reorderQueue chatId fromIndex toIndex => exact ⟨home, h.reorderQueue chatId fromIndex toIndex⟩
  | mount hook chatId =>
    refine ⟨home, ?_⟩
    rw [Tab.step, Tab.mount]
    split
    · exact h
    · exact h.congr rfl rfl rfl rfl rfl
  | unmount hook =>
    refine ⟨home, ?_⟩
    rw [Tab.step, Tab.unmount]
    split
    · exact h.congr rfl rfl rfl rfl rfl
    · exact h
  | drainEffect hook render => exact ⟨home, h.drainEffect hallowed⟩
  | directSend hook data => exact h.directSend hallowed
  | answer sender found => exact ⟨home, h.answer hallowed⟩
  | bodyEnd sender => exact ⟨home, h.bodyEnd⟩
  | tick =>
    refine ⟨home, ?_⟩
    rw [Tab.step, Tab.tick]
    split
    · exact h
    · exact h.congr rfl rfl rfl rfl rfl
  | status chatId found => exact ⟨home, h.status chatId found⟩
  | tickEnd =>
    refine ⟨home, ?_⟩
    rw [Tab.step, Tab.tickEnd]
    split
    · exact h.congr rfl rfl rfl rfl rfl
    · exact h

/-! ## Entries that leave a queue -/

/-- What takes an id out of the queue of a chat: the user removes it or clears the queue, the server
accepts its request or rejects that of the runner for good, or the runner finds the chat deleted. -/
def Leaves (s : Tab Hook Chat Data) (chatId : Chat) (id : ℕ) : Event Hook Chat Data → Prop
  | .removeFromQueue removed => removed = id
  | .clearQueue cleared => cleared = chatId
  | .answer sender (.success _) => ∃ send ∈ s.sends sender, id ∈ send.queueEntryId
  | .answer (.runner drained) (.rejected status) =>
      isPermanentClientError status = true ∧
        ∃ send ∈ s.sends (.runner drained), id ∈ send.queueEntryId
  | .status checked .notFound => checked = chatId
  | _ => False

omit [DecidableEq Hook] in
theorem mem_queuedIds_removeFromQueue {chatId : Chat} {id removed : ℕ}
    (h : id ∈ s.queuedIds chatId) (hkept : id ∉ (s.removeFromQueue removed).queuedIds chatId) :
    removed = id := by
  obtain ⟨entry, hentry, rfl⟩ := (mem_queuedIds_iff chatId id).mp h
  by_contra hne
  apply hkept
  rw [mem_queuedIds_iff]
  refine ⟨entry, ?_, rfl⟩
  rw [getQueue_removeFromQueue, List.mem_filter]
  exact ⟨hentry, decide_eq_true (Ne.symm hne)⟩

omit [DecidableEq Hook] in
theorem mem_queuedIds_removeEntry {chatId : Chat} {id : ℕ} {queueEntryId : Option ℕ}
    (h : id ∈ s.queuedIds chatId) (hkept : id ∉ (s.removeEntry queueEntryId).queuedIds chatId) :
    id ∈ queueEntryId := by
  cases queueEntryId with
  | none => exact absurd h hkept
  | some removed => exact Option.mem_some.mpr (mem_queuedIds_removeFromQueue h hkept)

omit [DecidableEq Hook] in
theorem mem_queuedIds_clearQueue {chatId cleared : Chat} {id : ℕ}
    (h : id ∈ s.queuedIds chatId) (hkept : id ∉ (s.clearQueue cleared).queuedIds chatId) :
    cleared = chatId := by
  by_contra hne
  apply hkept
  rw [queuedIds, getQueue_clearQueue, if_neg (Ne.symm hne)]
  exact h

omit [DecidableEq Hook] in
theorem mem_queuedIds_enqueueMessage {chatId other : Chat} {data : Data} {id : ℕ}
    (h : id ∈ s.queuedIds other) : id ∈ (s.enqueueMessage chatId data).queuedIds other := by
  rw [queuedIds, getQueue_enqueueMessage]
  split
  next hother =>
    rw [List.map_append, List.mem_append]
    exact Or.inl (hother ▸ h)
  · exact h

theorem leaves_of_answer {chatId : Chat} {id : ℕ} {found : Answer}
    (h : id ∈ s.queuedIds chatId) (hleft : id ∉ (s.answer sender found).queuedIds chatId) :
    s.Leaves chatId id (.answer sender found) := by
  rw [Tab.answer] at hleft
  cases hsend : s.sends sender with
  | none =>
    rw [hsend] at hleft
    exact absurd h hleft
  | some send =>
    rw [hsend] at hleft
    dsimp only at hleft
    split at hleft
    · exact absurd h hleft
    · cases sender with
      | hook hook =>
        cases found with
        | success body =>
          cases body with
          | true => exact ⟨send, hsend, mem_queuedIds_removeEntry h hleft⟩
          | false => exact absurd h hleft
        | rejected status => exact absurd h hleft
        | failed => exact absurd h hleft
      | runner drained =>
        cases found with
        | success body => exact ⟨send, hsend, mem_queuedIds_removeEntry h hleft⟩
        | rejected status =>
          dsimp only [answerRunner] at hleft
          split at hleft
          next hpermanent =>
            exact ⟨hpermanent, send, hsend, mem_queuedIds_removeEntry h hleft⟩
          · exact absurd h hleft
        | failed => exact absurd h hleft

theorem leaves_of_status {chatId checked : Chat} {id : ℕ} {found : RunningStatus}
    (h : id ∈ s.queuedIds chatId) (hleft : id ∉ (s.status checked found).queuedIds chatId) :
    s.Leaves chatId id (.status checked found) := by
  rw [Tab.status] at hleft
  split at hleft
  · exact absurd h hleft
  · cases found with
    | running => exact absurd h hleft
    | notFound =>
      exact mem_queuedIds_clearQueue (s := s.checked checked) h hleft
    | idle =>
      dsimp only at hleft
      split at hleft
      · exact absurd h hleft
      · exact absurd h hleft

/-- An entry that leaves its queue has a reason. -/
theorem leaves_of_step {chatId : Chat} {id : ℕ} (event : Event Hook Chat Data)
    (h : id ∈ s.queuedIds chatId) (hleft : id ∉ (s.step event).queuedIds chatId) :
    s.Leaves chatId id event := by
  cases event with
  | enqueueMessage other data => exact absurd (mem_queuedIds_enqueueMessage h) hleft
  | removeFromQueue removed => exact mem_queuedIds_removeFromQueue h hleft
  | clearQueue cleared => exact mem_queuedIds_clearQueue h hleft
  | reorderQueue other fromIndex toIndex =>
    obtain ⟨entry, hentry, rfl⟩ := (mem_queuedIds_iff chatId id).mp h
    exact absurd ((mem_queuedIds_iff _ _).mpr ⟨entry, (mem_getQueue_reorderQueue other chatId
      fromIndex toIndex entry).mpr hentry, rfl⟩) hleft
  | mount hook other =>
    rw [Tab.step, Tab.mount] at hleft
    split at hleft <;> exact absurd h hleft
  | unmount hook =>
    rw [Tab.step, Tab.unmount] at hleft
    split at hleft <;> exact absurd h hleft
  | drainEffect hook render =>
    rw [Tab.step, Tab.drainEffect] at hleft
    split at hleft <;> exact absurd h hleft
  | directSend hook data =>
    rw [Tab.step, Tab.directSend] at hleft
    split at hleft
    · split at hleft
      · exact absurd (mem_queuedIds_enqueueMessage h) hleft
      · exact absurd h hleft
    · exact absurd h hleft
  | answer sender found => exact leaves_of_answer h hleft
  | bodyEnd sender =>
    rw [Tab.step, Tab.bodyEnd] at hleft
    split at hleft
    · exact absurd h hleft
    · split at hleft
      · cases sender <;> exact absurd h hleft
      · exact absurd h hleft
  | tick =>
    rw [Tab.step, Tab.tick] at hleft
    split at hleft <;> exact absurd h hleft
  | status checked found => exact leaves_of_status h hleft
  | tickEnd =>
    rw [Tab.step, Tab.tickEnd] at hleft
    split at hleft <;> exact absurd h hleft

/-! ## Runs -/

/-- The user takes an entry out of its queue. -/
def UserRemoves (chatId : Chat) (id : ℕ) (event : Event Hook Chat Data) : Prop :=
  event = .removeFromQueue id ∨ event = .clearQueue chatId

/-- No request of the tab is for the entry. -/
def Unsent (s : Tab Hook Chat Data) (id : ℕ) : Prop :=
  ∀ sender send, s.sends sender = some send → id ∉ send.queueEntryId

/-- The messages of a run are sent at most once and in order. -/
structure SentInOrder (events : List (Event Hook Chat Data)) : Prop where
  /-- at most one request for a chat is under way -/
  exclusive : ∀ before, before <+: events → ∀ a b first second,
    (run step initial before).sends a = some first →
      (run step initial before).sends b = some second → first.chatId = second.chatId → a = b
  /-- an entry is accepted at most once -/
  once : ∀ before, before <+: events →
    ((run step initial before).server.filterMap (·.queueEntryId)).Nodup
  /-- an entry leaves its queue for one of the reasons there are -/
  leaves : ∀ before event, before ++ [event] <+: events → ∀ chatId id,
    id ∈ (run step initial before).queuedIds chatId →
      id ∉ ((run step initial before).step event).queuedIds chatId →
        (run step initial before).Leaves chatId id event
  /-- an entry that is removed while no request is made for it is never sent -/
  unsent : ∀ before event after, before ++ event :: after <+: events → ∀ chatId id,
    id ∈ (run step initial before).queuedIds chatId → UserRemoves chatId id event →
      (run step initial before).Unsent id →
        (run step initial (before ++ event :: after)).Unsent id
  /-- an entry is sent when it stands first -/
  first : ∀ before, before <+: events → ∀ send ∈ (run step initial before).server,
    ∀ id ∈ send.queueEntryId, send.queued.head? = some id
  /-- and once it is accepted no request is made that takes it for queued -/
  ordered : ∀ before, before <+: events →
    (run step initial before).server.Pairwise fun earlier later ↦
      earlier.chatId = later.chatId → ∀ id ∈ earlier.queueEntryId, id ∉ later.queued

/-- An entry that is queued and not under way is gone once the user removes it. -/
theorem Orderly.gone_of_userRemoves (h : s.Orderly home fun _ ↦ False)
    {event : Event Hook Chat Data} {chatId : Chat} {id : ℕ} (hqueued : id ∈ s.queuedIds chatId)
    (hremoves : UserRemoves chatId id event) (hunsent : s.Unsent id) :
    (s.step event).Orderly home (· = id) := by
  obtain ⟨entry, hentry, rfl⟩ := (mem_queuedIds_iff chatId id).mp hqueued
  obtain ⟨-, hbound, hhome⟩ := h.keyed chatId entry hentry
  have hall {after : Tab Hook Chat Data} (hafter : after.Orderly home fun _ ↦ False)
      (hcounter : after.counter = s.counter) (hsends : after.sends = s.sends)
      (hgone : ∀ other, entry.id ∉ after.queuedIds other) :
      after.Orderly home (· = entry.id) := by
    refine { hafter with removed := ?_ }
    rintro _ rfl
    refine ⟨hcounter ▸ hbound, hgone, fun sender send hsend ↦ hunsent sender send ?_⟩
    rw [← hsends]
    exact hsend
  rcases hremoves with rfl | rfl
  · refine hall (h.removeFromQueue entry.id) rfl rfl fun other hother ↦ ?_
    obtain ⟨kept, hkept, hsame⟩ := (mem_queuedIds_iff other entry.id).mp hother
    have hfiltered : kept ∈ (s.removeFromQueue entry.id).getQueue other := hkept
    rw [getQueue_removeFromQueue] at hfiltered
    exact of_decide_eq_true (List.mem_filter.mp hfiltered).2 hsame
  · refine hall (h.clearQueue chatId) rfl rfl fun other hother ↦ ?_
    obtain ⟨kept, hkept, hsame⟩ := (mem_queuedIds_iff other entry.id).mp hother
    have hcleared : kept ∈ (s.clearQueue chatId).getQueue other := hkept
    rw [getQueue_clearQueue] at hcleared
    split at hcleared
    · cases hcleared
    next hne =>
      obtain ⟨-, -, hkeptHome⟩ := h.keyed other kept hcleared
      rw [hsame, hhome] at hkeptHome
      exact hne (Option.some.inj hkeptHome).symm

instance (s : Tab Hook Chat Data) : DecidablePred s.allowed := fun event ↦
  match event with
  | .drainEffect hook render =>
    inferInstanceAs (Decidable (∀ head ∈ s.effectHead hook render,
      s.inFlightDrains head.chatId = false))
  | .directSend hook _ =>
    inferInstanceAs (Decidable (∀ chatId ∈ s.directChat hook, s.inFlightDrains chatId = false))
  | .answer (.hook hook) (.success false) =>
    inferInstanceAs (Decidable (∀ send ∈ s.sends (.hook hook), send.queueEntryId = none))
  | .enqueueMessage _ _ | .removeFromQueue _ | .clearQueue _ | .reorderQueue _ _ _ | .mount _ _
  | .unmount _ | .answer (.hook _) (.success true) | .answer (.hook _) (.rejected _)
  | .answer (.hook _) .failed | .answer (.runner _) _ | .bodyEnd _ | .tick | .status _ _
  | .tickEnd => inferInstanceAs (Decidable True)

end

/-- The render of a chat whose turn is over and that has a queue. -/
def idleRender : Render where
  isStreaming := false
  serverBusy := false
  noQueuedMessages := false

/-- The hook sends the first message, and the runner the second when the chat has been left. -/
def leftInBetween : List (Event (Fin 1) (Fin 1) String) :=
  [.enqueueMessage 0 "a", .enqueueMessage 0 "b", .mount 0 0, .drainEffect 0 idleRender,
    .answer (.hook 0) (.success true), .bodyEnd (.hook 0), .unmount 0, .tick, .status 0 .idle,
    .answer (.runner 0) (.success true), .bodyEnd (.runner 0), .tickEnd]

/-- The chat is opened while the runner sends its head. -/
def openedDuringDrain : List (Event (Fin 1) (Fin 1) String) :=
  [.enqueueMessage 0 "a", .tick, .status 0 .idle, .mount 0 0, .drainEffect 0 idleRender]

end Tab

end Flockctl.ChatQueue
