import Flockctl.Notifications.Dispatcher
import Flockctl.Transition.Run

/-!
# Notifications follow the inbox

Between two polls, every key that is new in the inbox gets exactly one notification, unless one with
that key was shown less than five seconds before, and nothing else is announced. A notification of a
row is closed by `resolveByKey` only when no row with its key is left. The permission requests of
one owner share a key.
-/

namespace Flockctl.Notifications

open Collections Transition

namespace Dispatcher

variable (s : Dispatcher)

/-- The dedup window of the key is open. -/
def IsRecent (key : Text) : Prop := ∃ expireAt, s.recent.get key = some expireAt ∧ s.now < expireAt

/-- A notification with this key was shown less than five seconds ago. -/
def RecentlyShown (key : Text) : Prop :=
  ∃ shown ∈ s.shown, shown.notifiable.key = key ∧ s.now < shown.firedAt + DEDUP_TTL_MS

/-- A handle is filed under the key of its notification, a timer under the key of a terminal one,
and the dedup windows are those of the notifications that were shown. -/
structure Filed (s : Dispatcher) : Prop where
  handles : ∀ key id, s.handles.get key = some id →
    (s.shown[id]?).map (·.notifiable.key) = some key
  timers : ∀ timer ∈ s.timers, ∃ taskId status, timer.2 = taskTerminalKey taskId status
  attention : ∀ shown ∈ s.shown, shown.notifiable.source = some .attention →
    ∃ item, shown.notifiable.key = attentionItemKey item
  recent_shown : ∀ key expireAt, s.recent.get key = some expireAt → ∃ shown ∈ s.shown,
    shown.notifiable.key = key ∧ expireAt = shown.firedAt + DEDUP_TTL_MS
  shown_recent : ∀ shown ∈ s.shown, s.now < shown.firedAt + DEDUP_TTL_MS →
    s.recent.get shown.notifiable.key = some (shown.firedAt + DEDUP_TTL_MS)

variable {s}

theorem get_swept_eq_some_iff (key : Text) (expireAt : ℕ) :
    s.swept.get key = some expireAt ↔ s.recent.get key = some expireAt ∧ s.now < expireAt := by
  rw [swept, JsMap.get_filter, Option.filter_eq_some_iff]
  simp

theorem has_swept_eq_true_iff (key : Text) : s.swept.has key = true ↔ s.IsRecent key := by
  simp only [JsMap.has_eq_true_iff, get_swept_eq_some_iff, IsRecent]

theorem isRecent_construct_iff (n : Notifiable) (key : Text) :
    (s.construct n).IsRecent key ↔ key = n.key ∨ s.IsRecent key := by
  by_cases hkey : key = n.key
  · subst hkey
    simp [IsRecent, construct, DEDUP_TTL_MS]
  · have hget : (s.construct n).recent.get key = s.swept.get key :=
      JsMap.get_set_of_ne _ _ hkey
    have hnow : (s.construct n).now = s.now := rfl
    simp only [IsRecent, hget, hnow, get_swept_eq_some_iff, hkey, false_or]
    constructor
    · rintro ⟨expireAt, ⟨hrecent, hlt⟩, -⟩
      exact ⟨expireAt, hrecent, hlt⟩
    · rintro ⟨expireAt, hrecent, hlt⟩
      exact ⟨expireAt, ⟨hrecent, hlt⟩, hlt⟩

theorem isRecent_swept_iff (key : Text) :
    IsRecent { s with recent := s.swept } key ↔ s.IsRecent key := by
  simp only [IsRecent, get_swept_eq_some_iff]
  constructor
  · rintro ⟨expireAt, ⟨hget, hlt⟩, -⟩
    exact ⟨expireAt, hget, hlt⟩
  · rintro ⟨expireAt, hget, hlt⟩
    exact ⟨expireAt, ⟨hget, hlt⟩, hlt⟩

/-- Behind open gates, only the dedup window decides. -/
theorem fire_openGates (pathname : Text) (n : Notifiable) :
    s.fire (openGates pathname) n =
      if s.swept.has n.key then { s with recent := s.swept } else s.construct n := by
  simp [fire, openGates]

theorem fire_of_isRecent (pathname : Text) {n : Notifiable} (hrecent : s.IsRecent n.key) :
    s.fire (openGates pathname) n = { s with recent := s.swept } := by
  rw [fire_openGates, if_pos ((has_swept_eq_true_iff n.key).mpr hrecent)]

theorem fire_of_not_isRecent (pathname : Text) {n : Notifiable} (hrecent : ¬s.IsRecent n.key) :
    s.fire (openGates pathname) n = s.construct n := by
  rw [fire_openGates, if_neg ((has_swept_eq_true_iff n.key).not.mpr hrecent)]

/-! ## What is filed -/

theorem isRecent_iff_recentlyShown (hs : s.Filed) (key : Text) :
    s.IsRecent key ↔ s.RecentlyShown key := by
  constructor
  · rintro ⟨expireAt, hget, hlt⟩
    obtain ⟨shown, hshown, hkey, rfl⟩ := hs.recent_shown key expireAt hget
    exact ⟨shown, hshown, hkey, hlt⟩
  · rintro ⟨shown, hshown, rfl, hlt⟩
    exact ⟨_, hs.shown_recent shown hshown hlt, hlt⟩

/-- Every kind of notification has keys of its own: those of terminal tasks are no keys of rows. -/
def IsKnown (n : Notifiable) : Prop :=
  (n.source = some .attention → ∃ item, n.key = attentionItemKey item) ∧
    (n.source = some .taskTerminal → ∃ taskId status, n.key = taskTerminalKey taskId status)

theorem filed_swept (hs : s.Filed) : Filed { s with recent := s.swept } where
  handles := hs.handles
  timers := hs.timers
  attention := hs.attention
  recent_shown := by
    intro key expireAt hget
    exact hs.recent_shown key expireAt ((get_swept_eq_some_iff key expireAt).mp hget).1
  shown_recent := by
    intro shown hshown hlt
    exact (get_swept_eq_some_iff _ _).mpr ⟨hs.shown_recent shown hshown hlt, hlt⟩

theorem filed_construct (hs : s.Filed) {n : Notifiable} (hn : IsKnown n)
    (hrecent : ¬s.IsRecent n.key) : (s.construct n).Filed where
  handles := by
    intro key id hget
    simp only [construct, JsMap.get_set] at hget ⊢
    by_cases hkey : key = n.key
    · rw [if_pos hkey, Option.some.injEq] at hget
      rw [← hget, hkey]
      simp
    · rw [if_neg hkey] at hget
      have hfiled := hs.handles key id hget
      have hlt : id < s.shown.length := by
        by_contra hge
        simp [List.getElem?_eq_none (Nat.le_of_not_lt hge)] at hfiled
      rw [List.getElem?_append_left hlt]
      exact hfiled
  timers := by
    intro timer htimer
    simp only [construct] at htimer
    split at htimer
    · rename_i hsource
      rcases List.mem_append.mp htimer with hold | hnew
      · exact hs.timers timer hold
      · rw [List.mem_singleton.mp hnew]
        exact hn.2 hsource
    · exact hs.timers timer htimer
  attention := by
    intro shown hshown hsource
    rcases List.mem_append.mp hshown with hold | hnew
    · exact hs.attention shown hold hsource
    · rw [List.mem_singleton.mp hnew] at hsource ⊢
      exact hn.1 hsource
  recent_shown := by
    intro key expireAt hget
    simp only [construct, JsMap.get_set] at hget ⊢
    by_cases hkey : key = n.key
    · rw [if_pos hkey, Option.some.injEq] at hget
      exact ⟨⟨n, s.now⟩, List.mem_append_right _ (List.mem_singleton_self _), hkey.symm, hget.symm⟩
    · rw [if_neg hkey, get_swept_eq_some_iff] at hget
      obtain ⟨shown, hshown, hshownKey, hexpire⟩ := hs.recent_shown key expireAt hget.1
      exact ⟨shown, List.mem_append_left _ hshown, hshownKey, hexpire⟩
  shown_recent := by
    intro shown hshown hlt
    simp only [construct, JsMap.get_set] at hshown hlt ⊢
    rcases List.mem_append.mp hshown with hold | hnew
    · have hget := hs.shown_recent shown hold hlt
      have hkey : shown.notifiable.key ≠ n.key := fun heq ↦ hrecent ⟨_, heq ▸ hget, hlt⟩
      rw [if_neg hkey, get_swept_eq_some_iff]
      exact ⟨hget, hlt⟩
    · rw [List.mem_singleton.mp hnew, if_pos rfl]

theorem filed_fire (hs : s.Filed) (pathname : Text) {n : Notifiable} (hn : IsKnown n) :
    (s.fire (openGates pathname) n).Filed := by
  by_cases hrecent : s.IsRecent n.key
  · rw [fire_of_isRecent pathname hrecent]
    exact filed_swept hs
  · rw [fire_of_not_isRecent pathname hrecent]
    exact filed_construct hs hn hrecent

theorem filed_forget (hs : s.Filed) (key : Text) (closed : List Closing) :
    Filed { s with handles := s.handles.delete key, closed := closed } where
  handles := by
    intro other id hget
    exact hs.handles other id (JsMap.get_delete_eq_some_iff.mp hget).2
  timers := hs.timers
  attention := hs.attention
  recent_shown := hs.recent_shown
  shown_recent := hs.shown_recent

theorem filed_resolveByKey (hs : s.Filed) (key : Text) : (s.resolveByKey key).Filed := by
  unfold resolveByKey
  split
  · exact hs
  · exact filed_forget hs key _

/-- `resolveByKey` closes the notification of the key, if it has one. -/
theorem closed_resolveByKey (hs : s.Filed) (key : Text) :
    ∃ closings, (s.resolveByKey key).closed = s.closed ++ closings ∧
      (s.resolveByKey key).shown = s.shown ∧ (s.resolveByKey key).now = s.now ∧
      (s.resolveByKey key).recent = s.recent ∧
      ∀ id, .resolved id ∈ closings → (s.shown[id]?).map (·.notifiable.key) = some key := by
  unfold resolveByKey
  cases hget : s.handles.get key with
  | none => exact ⟨[], by simp, rfl, rfl, rfl, by simp⟩
  | some handle =>
    refine ⟨[.resolved handle], rfl, rfl, rfl, rfl, ?_⟩
    intro id hid
    cases List.mem_singleton.mp hid
    exact hs.handles key handle hget

/-- Resolving keys closes notifications of these keys only, and shows none. -/
theorem resolveAll (hs : s.Filed) (keys : List Text) :
    (keys.foldl resolveByKey s).Filed ∧
      (keys.foldl resolveByKey s).shown = s.shown ∧
      (∀ key, (keys.foldl resolveByKey s).IsRecent key ↔ s.IsRecent key) ∧
      ∃ closings, (keys.foldl resolveByKey s).closed = s.closed ++ closings ∧
        ∀ id, .resolved id ∈ closings →
          ∃ key ∈ keys, (s.shown[id]?).map (·.notifiable.key) = some key := by
  induction keys generalizing s with
  | nil => exact ⟨hs, rfl, fun _ ↦ Iff.rfl, [], by simp, by simp⟩
  | cons key keys ih =>
    obtain ⟨first, hclosed, hshown, hnow, hrecent, hfirst⟩ := closed_resolveByKey hs key
    obtain ⟨hfiled, hshown', hrecent', rest, hclosed', hrest⟩ := ih (filed_resolveByKey hs key)
    rw [List.foldl_cons]
    refine ⟨hfiled, hshown'.trans hshown, fun other ↦ (hrecent' other).trans ?_,
      first ++ rest, ?_, ?_⟩
    · simp only [IsRecent, hrecent, hnow]
    · rw [hclosed', hclosed, List.append_assoc]
    · intro id hid
      rcases List.mem_append.mp hid with hin | hin
      · exact ⟨key, List.mem_cons_self, hfirst id hin⟩
      · obtain ⟨other, hother, hkey⟩ := hrest id hin
        rw [hshown] at hkey
        exact ⟨other, List.mem_cons_of_mem key hother, hkey⟩

theorem isKnown_notifiableFor (item : AttentionItem) : IsKnown (notifiableFor item) := by
  constructor
  · exact fun _ ↦ ⟨item, rfl⟩
  · intro hsource
    cases hsource

theorem isKnown_terminalNotifiable (taskId : Text) (status : TerminalStatus) (body : Text) :
    IsKnown (terminalNotifiable taskId status body) := by
  constructor
  · intro hsource
    cases hsource
  · exact fun _ ↦ ⟨taskId, status, rfl⟩

theorem isKnown_chatReplyNotifiable (chatId messageId : Text) :
    IsKnown (chatReplyNotifiable chatId messageId) := by
  constructor <;> intro hsource <;> cases hsource

/-- The notifications shown for some rows: one for each key that is not recent, and no other. -/
structure ShownFor (s : Dispatcher) (items : List AttentionItem) (new : List Shown) : Prop where
  once : (new.map (·.notifiable.key)).Nodup
  only : ∀ shown ∈ new, ∃ item ∈ items,
    shown.notifiable = notifiableFor item ∧ ¬s.IsRecent (attentionItemKey item)
  every : ∀ item ∈ items, ¬s.IsRecent (attentionItemKey item) →
    attentionItemKey item ∈ new.map (·.notifiable.key)

/-- Firing for rows, one after the other. -/
def fireAll (pathname : Text) (s : Dispatcher) (items : List AttentionItem) : Dispatcher :=
  items.foldl (fun d item ↦ d.fire (openGates pathname) (notifiableFor item)) s

/-- Firing for rows shows the notifications it is to show, and resolves none. -/
theorem shownFor_fireAll (hs : s.Filed) (pathname : Text) (items : List AttentionItem) :
    (s.fireAll pathname items).Filed ∧
      (∃ new, (s.fireAll pathname items).shown = s.shown ++ new ∧ s.ShownFor items new) ∧
      ∃ closings, (s.fireAll pathname items).closed = s.closed ++ closings ∧
        ∀ id, .resolved id ∉ closings := by
  induction items generalizing s with
  | nil => exact ⟨hs, ⟨[], by simp [fireAll], by simp, by simp, by simp⟩, [], by simp [fireAll],
      by simp⟩
  | cons item items ih =>
    have hcons : s.fireAll pathname (item :: items) =
        (s.fire (openGates pathname) (notifiableFor item)).fireAll pathname items := rfl
    by_cases hrecent : s.IsRecent (attentionItemKey item)
    · have hkey : s.IsRecent (notifiableFor item).key := hrecent
      obtain ⟨hfiled, ⟨new, hshown, hnew⟩, closings, hclosed, hnone⟩ := ih (filed_swept hs)
      rw [hcons, fire_of_isRecent pathname hkey]
      refine ⟨hfiled, ⟨new, hshown, hnew.once, ?_, ?_⟩, closings, hclosed, hnone⟩
      · intro shown hin
        obtain ⟨other, hother, heq, hold⟩ := hnew.only shown hin
        rw [isRecent_swept_iff] at hold
        exact ⟨other, List.mem_cons_of_mem item hother, heq, hold⟩
      · intro other hother hold
        rcases List.mem_cons.mp hother with rfl | hother
        · exact absurd hrecent hold
        · exact hnew.every other hother ((isRecent_swept_iff _).not.mpr hold)
    · have hkey : ¬s.IsRecent (notifiableFor item).key := hrecent
      obtain ⟨hfiled, ⟨new, hshown, hnew⟩, closings, hclosed, hnone⟩ :=
        ih (filed_construct hs (isKnown_notifiableFor item) hkey)
      rw [hcons, fire_of_not_isRecent pathname hkey]
      have hafter (key : Text) : (s.construct (notifiableFor item)).IsRecent key ↔
          key = attentionItemKey item ∨ s.IsRecent key := isRecent_construct_iff _ key
      refine ⟨hfiled, ⟨⟨notifiableFor item, s.now⟩ :: new, ?_, ?_, ?_, ?_⟩,
        ((s.handles.get (attentionItemKey item)).map Closing.replaced).toList ++ closings, ?_, ?_⟩
      · rw [hshown]
        exact List.append_assoc _ [_] new
      · rw [List.map_cons, List.nodup_cons]
        refine ⟨?_, hnew.once⟩
        intro hin
        obtain ⟨shown, hshownIn, hshownKey⟩ := List.mem_map.mp hin
        obtain ⟨other, -, heq, hold⟩ := hnew.only shown hshownIn
        rw [hafter, not_or] at hold
        rw [heq] at hshownKey
        exact hold.1 hshownKey
      · intro shown hin
        rcases List.mem_cons.mp hin with rfl | hin
        · exact ⟨item, List.mem_cons_self, rfl, hrecent⟩
        · obtain ⟨other, hother, heq, hold⟩ := hnew.only shown hin
          rw [hafter, not_or] at hold
          exact ⟨other, List.mem_cons_of_mem item hother, heq, hold.2⟩
      · intro other hother hold
        rw [List.map_cons, List.mem_cons]
        by_cases hsame : attentionItemKey other = attentionItemKey item
        · exact Or.inl hsame
        · rcases List.mem_cons.mp hother with rfl | hother
          · exact absurd rfl hsame
          · right
            refine hnew.every other hother ?_
            rw [hafter, not_or]
            exact ⟨hsame, hold⟩
      · rw [hclosed]
        exact List.append_assoc _ _ closings
      · intro id hid
        rcases List.mem_append.mp hid with hin | hin
        · simp at hin
        · exact hnone id hin

/-- Firing resolves no notification. -/
theorem closed_fire (pathname : Text) (n : Notifiable) :
    ∃ closings, (s.fire (openGates pathname) n).closed = s.closed ++ closings ∧
      ∀ id, .resolved id ∉ closings := by
  by_cases hrecent : s.IsRecent n.key
  · rw [fire_of_isRecent pathname hrecent]
    exact ⟨[], by simp, by simp⟩
  · rw [fire_of_not_isRecent pathname hrecent]
    exact ⟨((s.handles.get n.key).map Closing.replaced).toList, rfl, by simp⟩

theorem exists_attentionItemKey_eq (item : AttentionItem) :
    ∃ rest, attentionItemKey item = item.kind.text ++ ':' :: rest := by
  unfold attentionItemKey
  split
  · exact ⟨_, rfl⟩
  · exact ⟨_, rfl⟩
  · exact ⟨_, rfl⟩
  · exact ⟨_, rfl⟩
  · exact ⟨_, rfl⟩
  · exact ⟨_, rfl⟩

/-- Texts that differ near the start are different. -/
theorem append_ne_append_of_take_ne {first second : Text} (n : ℕ) (hfirst : n ≤ first.length)
    (hsecond : n ≤ second.length) (hne : first.take n ≠ second.take n) (rest other : Text) :
    first ++ rest ≠ second ++ other := by
  intro heq
  have hstart := congrArg (List.take n) heq
  rw [List.take_append_of_le_length hfirst, List.take_append_of_le_length hsecond] at hstart
  exact hne hstart

/-- The key of a row is not the one of a terminal task: their first six letters differ. -/
theorem attentionItemKey_ne_taskTerminalKey (item : AttentionItem) (taskId : Text)
    (status : TerminalStatus) : attentionItemKey item ≠ taskTerminalKey taskId status := by
  obtain ⟨rest, hkey⟩ := exists_attentionItemKey_eq item
  have hlength : 6 ≤ item.kind.text.length := by cases item.kind <;> decide
  have hkind : item.kind.text.take 6 ≠ "task_terminal".toList.take 6 := by
    cases item.kind <;> decide
  rw [hkey]
  exact append_ne_append_of_take_ne 6 hlength (by decide) hkind _ _

theorem filed_timeout (hs : s.Filed) (index : ℕ) : (s.timeout index).Filed := by
  unfold timeout
  split
  · exact hs
  · split
    · exact hs
    · refine filed_resolveByKey ?_ _
      exact {
        handles := hs.handles
        timers := fun timer htimer ↦ hs.timers timer (List.mem_of_mem_eraseIdx htimer)
        attention := hs.attention
        recent_shown := hs.recent_shown
        shown_recent := hs.shown_recent }

/-- A timer resolves a terminal notification, or none. -/
theorem closed_timeout (hs : s.Filed) (index : ℕ) :
    ∃ closings, (s.timeout index).closed = s.closed ++ closings ∧
      (s.timeout index).shown = s.shown ∧
      ∀ id, .resolved id ∈ closings → ∃ taskId status,
        (s.shown[id]?).map (·.notifiable.key) = some (taskTerminalKey taskId status) := by
  unfold timeout
  cases htimer : s.timers[index]? with
  | none => exact ⟨[], by simp, rfl, by simp⟩
  | some timer =>
    obtain ⟨due, key⟩ := timer
    dsimp only
    split
    · exact ⟨[], by simp, rfl, by simp⟩
    · obtain ⟨taskId, status, hkey⟩ := hs.timers _ (List.mem_of_getElem? htimer)
      dsimp only at hkey
      subst hkey
      have hleft : Filed { s with timers := s.timers.eraseIdx index } := {
        handles := hs.handles
        timers := fun timer htimer ↦ hs.timers timer (List.mem_of_mem_eraseIdx htimer)
        attention := hs.attention
        recent_shown := hs.recent_shown
        shown_recent := hs.shown_recent }
      obtain ⟨closings, hclosed, hshown, -, -, hresolved⟩ :=
        closed_resolveByKey hleft (taskTerminalKey taskId status)
      exact ⟨closings, hclosed, hshown, fun id hid ↦ ⟨taskId, status, hresolved id hid⟩⟩

theorem filed_onclose (hs : s.Filed) (id : ℕ) : (s.onclose id).Filed := by
  unfold onclose
  split
  · exact hs
  · split
    · exact filed_forget hs _ s.closed
    · exact hs

theorem filed_advance (hs : s.Filed) (elapsed : ℕ) : Filed { s with now := s.now + elapsed } where
  handles := hs.handles
  timers := hs.timers
  attention := hs.attention
  recent_shown := hs.recent_shown
  shown_recent := by
    intro shown hshown hlt
    have hbefore : s.now < shown.firedAt + DEDUP_TTL_MS := by
      dsimp only at hlt
      omega
    exact hs.shown_recent shown hshown hbefore

end Dispatcher

namespace NotifyingTab

variable (s s' : NotifyingTab)

/-- Whatever `resolveByKey` closes, if it is the notification of a row, then no row with its key is
in the inbox any more. -/
def ResolvesOnlyGone : Prop :=
  ∃ closings, s'.dispatcher.closed = s.dispatcher.closed ++ closings ∧
    ∀ id shown, .resolved id ∈ closings → s'.dispatcher.shown[id]? = some shown →
      shown.notifiable.source = some .attention →
      ∀ item ∈ s'.prev.getD [], attentionItemKey item ≠ shown.notifiable.key

/-- The row has a key that no row of the last poll had. -/
def IsNew (prev : List AttentionItem) (item : AttentionItem) : Prop :=
  attentionItemKey item ∉ prev.map attentionItemKey

/-- Between two polls, one notification is shown for each new key that was not shown less than five
seconds before, and no other. -/
def AnnouncesNew (prev next : List AttentionItem) : Prop :=
  ∃ new, s'.dispatcher.shown = s.dispatcher.shown ++ new ∧
    (new.map (·.notifiable.key)).Nodup ∧
    (∀ shown ∈ new, ∃ item ∈ next, shown.notifiable = notifiableFor item ∧ IsNew prev item ∧
      ¬s.dispatcher.RecentlyShown (attentionItemKey item)) ∧
    ∀ item ∈ next, IsNew prev item → ¬s.dispatcher.RecentlyShown (attentionItemKey item) →
      attentionItemKey item ∈ new.map (·.notifiable.key)

/-- What an event shows and closes follows from the inbox; the first poll shows nothing. -/
structure FollowsInbox (event : TabEvent) : Prop where
  gone : s.ResolvesOnlyGone s'
  announces : ∀ next, event = .snapshot next →
    match s.prev with
    | none => s'.dispatcher.shown = s.dispatcher.shown
    | some prev => s.AnnouncesNew s' prev next

variable {s}

theorem filed_step (hs : s.dispatcher.Filed) (pathname : Text) (event : TabEvent) :
    (s.step (openGates pathname) event).dispatcher.Filed := by
  cases event with
  | snapshot items =>
    have hresolved := (Dispatcher.resolveAll hs
      (diffAttentionForNotificationsBidirectional s.prev items).removedKeys).1
    exact (Dispatcher.shownFor_fireAll hresolved pathname _).1
  | taskStatus taskId status body =>
    exact Dispatcher.filed_fire hs pathname (Dispatcher.isKnown_terminalNotifiable _ _ _)
  | chatReply chatId messageId =>
    exact Dispatcher.filed_fire hs pathname (Dispatcher.isKnown_chatReplyNotifiable _ _)
  | onclose id => exact Dispatcher.filed_onclose hs id
  | timeout index => exact Dispatcher.filed_timeout hs index
  | advance elapsed => exact Dispatcher.filed_advance hs elapsed

/-- An event that resolves nothing. -/
theorem resolvesOnlyGone_of_none {s' : NotifyingTab}
    (hclosed : ∃ closings, s'.dispatcher.closed = s.dispatcher.closed ++ closings ∧
      ∀ id, .resolved id ∉ closings) : s.ResolvesOnlyGone s' := by
  obtain ⟨closings, hclosed, hnone⟩ := hclosed
  exact ⟨closings, hclosed, fun id _ hid ↦ absurd hid (hnone id)⟩

/-- What a poll shows and closes. -/
theorem followsInbox_snapshot (hs : s.dispatcher.Filed) (pathname : Text)
    (items : List AttentionItem) :
    s.FollowsInbox (s.step (openGates pathname) (.snapshot items)) (.snapshot items) := by
  have hfilter (rows : List AttentionItem) :
      rows.filter (fun item ↦ !isFocusedOnSameEntity (openGates pathname) item) = rows :=
    List.filter_eq_self.mpr fun _ _ ↦ rfl
  cases hprev : s.prev with
  | none =>
    have hafter : (s.step (openGates pathname) (.snapshot items)).dispatcher = s.dispatcher := by
      simp [step, observe, hprev, diffAttentionForNotificationsBidirectional]
    refine ⟨resolvesOnlyGone_of_none ⟨[], by simp [hafter], by simp⟩, ?_⟩
    intro next _
    rw [hprev, hafter]
  | some prev =>
    let diff := diffAttentionForNotificationsBidirectional (some prev) items
    obtain ⟨hfiled, hshown, hrecent, resolved, hclosed, hresolved⟩ :=
      Dispatcher.resolveAll hs diff.removedKeys
    obtain ⟨-, ⟨new, hnewShown, hnew⟩, replaced, hreplaced, hnone⟩ :=
      Dispatcher.shownFor_fireAll hfiled pathname diff.added
    have hafter : (s.step (openGates pathname) (.snapshot items)).dispatcher =
        Dispatcher.fireAll pathname (diff.removedKeys.foldl Dispatcher.resolveByKey s.dispatcher)
          diff.added := by
      simp only [step, observe, hprev, hfilter]
      rfl
    have hadded (item : AttentionItem) : item ∈ diff.added ↔ item ∈ items ∧ IsNew prev item := by
      simp [diff, diffAttentionForNotificationsBidirectional, IsNew]
    constructor
    · refine ⟨resolved ++ replaced, ?_, ?_⟩
      · rw [hafter, hreplaced, hclosed, List.append_assoc]
      · intro id shown hid hget _ item hitem hsame
        rw [List.mem_append] at hid
        obtain ⟨key, hkey, hfound⟩ := hresolved id (hid.resolve_right (hnone id))
        rw [hafter, hnewShown, hshown] at hget
        have hlt : id < s.dispatcher.shown.length := by
          by_contra hge
          simp [List.getElem?_eq_none (Nat.le_of_not_lt hge)] at hfound
        rw [List.getElem?_append_left hlt] at hget
        rw [hget, Option.map_some, Option.some.injEq] at hfound
        have hgone : key ∉ items.map attentionItemKey := by
          simp only [diff, diffAttentionForNotificationsBidirectional, List.mem_filter] at hkey
          simpa using hkey.2
        exact hgone (List.mem_map.mpr ⟨item, hitem, hsame.trans hfound⟩)
    · intro next hnext
      cases hnext
      rw [hprev]
      have hrecentShown (key : Text) :
          (diff.removedKeys.foldl Dispatcher.resolveByKey s.dispatcher).IsRecent key ↔
            s.dispatcher.RecentlyShown key :=
        (hrecent key).trans (Dispatcher.isRecent_iff_recentlyShown hs key)
      refine ⟨new, ?_, hnew.once, ?_, ?_⟩
      · rw [hafter, hnewShown, hshown]
      · intro shown hin
        obtain ⟨item, hitem, heq, hold⟩ := hnew.only shown hin
        rw [hadded] at hitem
        rw [hrecentShown] at hold
        exact ⟨item, hitem.1, heq, hitem.2, hold⟩
      · intro item hitem hisNew hold
        exact hnew.every item ((hadded item).mpr ⟨hitem, hisNew⟩) ((hrecentShown _).not.mpr hold)

theorem followsInbox_step (hs : s.dispatcher.Filed) (pathname : Text) (event : TabEvent) :
    s.FollowsInbox (s.step (openGates pathname) event) event := by
  cases event with
  | snapshot items => exact followsInbox_snapshot hs pathname items
  | taskStatus taskId status body =>
    exact ⟨resolvesOnlyGone_of_none (Dispatcher.closed_fire pathname _), by simp⟩
  | chatReply chatId messageId =>
    exact ⟨resolvesOnlyGone_of_none (Dispatcher.closed_fire pathname _), by simp⟩
  | onclose id =>
    refine ⟨resolvesOnlyGone_of_none ⟨[], ?_, by simp⟩, by simp⟩
    simp only [step, Dispatcher.onclose]
    split
    · simp
    · split <;> simp
  | timeout index =>
    obtain ⟨closings, hclosed, hshown, hterminal⟩ := Dispatcher.closed_timeout hs index
    refine ⟨⟨closings, hclosed, ?_⟩, by simp⟩
    intro id shown hid hget hsource
    obtain ⟨taskId, status, hkey⟩ := hterminal id hid
    have hold : s.dispatcher.shown[id]? = some shown := hshown ▸ hget
    obtain ⟨item, hitem⟩ := hs.attention shown (List.mem_of_getElem? hold) hsource
    rw [hold, Option.map_some, Option.some.injEq, hitem] at hkey
    exact absurd hkey (Dispatcher.attentionItemKey_ne_taskTerminalKey item taskId status)
  | advance elapsed => exact ⟨resolvesOnlyGone_of_none ⟨[], by simp [step], by simp⟩, by simp⟩

/-- The tab has just been opened. -/
def boot (now : ℕ) : NotifyingTab := { dispatcher := { now } }

theorem filed_boot (now : ℕ) : (boot now).dispatcher.Filed where
  handles := by simp [boot]
  timers := by simp [boot]
  attention := by simp [boot]
  recent_shown := by simp [boot]
  shown_recent := by simp [boot]

/-- Behind open gates, every event of every run follows the inbox. -/
theorem followsInbox (pathname : Text) (now : ℕ) (events : List TabEvent) (event : TabEvent) :
    (run (step (openGates pathname)) (boot now) events).FollowsInbox
      ((run (step (openGates pathname)) (boot now) events).step (openGates pathname) event)
      event := by
  have hfiled : (run (step (openGates pathname)) (boot now) events).dispatcher.Filed := by
    have hstep : ∀ (s : NotifyingTab) (event : TabEvent), s.dispatcher.Filed →
        (s.step (openGates pathname) event).dispatcher.Filed :=
      fun _ event hs ↦ filed_step hs pathname event
    exact run_preserves hstep (filed_boot now) events
  exact followsInbox_step hfiled pathname event

/-- The rows are of one kind and owner, and have one request id. -/
def sameRow (item other : AttentionItem) : Bool :=
  item.kind == other.kind && item.ownerId == other.ownerId && item.requestId == other.requestId

/-- Every row that was not there in the last poll has a notification of its own. -/
def AnnouncesEachRow (s s' : NotifyingTab) (next : List AttentionItem) : Prop :=
  ∀ item ∈ next, (s.prev.getD []).any (sameRow item) = false →
    ((s'.dispatcher.shown.drop s.dispatcher.shown.length).any fun shown ↦
      shown.notifiable.item.any (sameRow item)) = true

/-- A permission request of task 5. -/
def permission (requestId : String) : AttentionItem :=
  ⟨.taskPermission, "5".toList, some requestId.toList, "Bash".toList⟩

/-- The second permission request of a task is not announced while the first one waits. -/
theorem not_announcesEachRow_twoPermissions :
    ¬AnnouncesEachRow
      (run (step (openGates [])) (boot 0)
        [.snapshot [], .snapshot [permission "perm-t5-1"], .advance 60000])
      (run (step (openGates [])) (boot 0)
        [.snapshot [], .snapshot [permission "perm-t5-1"], .advance 60000,
          .snapshot [permission "perm-t5-1", permission "perm-t5-2"]])
      [permission "perm-t5-1", permission "perm-t5-2"] := by
  intro hannounces
  have hsecond := hannounces (permission "perm-t5-2") (by decide) (by decide +kernel)
  exact absurd hsecond (by decide +kernel)

end NotifyingTab

end Flockctl.Notifications
