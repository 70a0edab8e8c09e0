import Mathlib.Data.List.Basic
import Mathlib.Data.Set.Lattice
import Mathlib.Order.CompletePartialOrder

/-!
# Passes over a store by regions

A pass applies an act to one item after the other, and each item has a region of the cells of the
store. When an act reads and changes cells of its item's region only, and the regions are disjoint,
the items do not get in each other's way: a pass does to each region what the act on its item would
do alone, and leaves every other cell as it was. What no act changes is fixed over the pass. An act
that finds its work done may be repeated.
-/

namespace Flockctl.Transition

universe u v w

variable {State Item Error Cell : Type u} {Value : Type v} {Fixed : Type w}

/-- A pass that finds all its work done changes nothing. -/
theorem foldlM_eq_self {act : State → Item → Except Error State} {items : List Item} {state : State}
    (hidle : ∀ item ∈ items, act state item = .ok state) :
    items.foldlM act state = .ok state := by
  induction items with
  | nil => rfl
  | cons item items ih =>
    rw [List.foldlM_cons, hidle item List.mem_cons_self]
    exact ih fun other hother ↦ hidle other (List.mem_cons_of_mem _ hother)

/-- An act on an item whose region is ready returns; it changes cells of the region only, and the
region before and after are in the relation `done`. Both notions depend on the region only. -/
structure ActsInRegions (fixed : State → Fixed) (view : State → Cell → Value)
    (act : State → Item → Except Error State)
    (region : Item → Set Cell) (ready : Item → (Cell → Value) → Prop)
    (done : Item → (Cell → Value) → (Cell → Value) → Prop) : Prop where
  returns : ∀ state item, ready item (view state) → ∃ after, act state item = .ok after ∧
    fixed after = fixed state ∧ (∀ cell ∉ region item, view after cell = view state cell) ∧
    done item (view state) (view after)
  ready_local : ∀ item first second, Set.EqOn first second (region item) →
    ready item first → ready item second
  done_local : ∀ item first second final other, Set.EqOn first second (region item) →
    Set.EqOn final other (region item) → done item first final → done item second other

namespace ActsInRegions

variable {fixed : State → Fixed} {view : State → Cell → Value} {act : State → Item → Except Error State}
  {region : Item → Set Cell} {ready : Item → (Cell → Value) → Prop}
  {done : Item → (Cell → Value) → (Cell → Value) → Prop}

/-- An act leaves the regions of other items alone. -/
theorem eqOn_of_disjoint {before after : Cell → Value} {item other : Item}
    (hframe : ∀ cell ∉ region item, after cell = before cell)
    (hdisjoint : Disjoint (region item) (region other)) :
    Set.EqOn before after (region other) := by
  intro cell hcell
  exact (hframe cell fun hitem ↦ Set.disjoint_left.mp hdisjoint hitem hcell).symm

/-- A pass over items with disjoint regions. -/
theorem foldlM_of_pairwise (h : ActsInRegions fixed view act region ready done) {items : List Item}
    (hdisjoint : items.Pairwise fun item other ↦ Disjoint (region item) (region other))
    {state : State} (hready : ∀ item ∈ items, ready item (view state)) :
    ∃ after, items.foldlM act state = .ok after ∧ fixed after = fixed state ∧
      (∀ cell, (∀ item ∈ items, cell ∉ region item) → view after cell = view state cell) ∧
      ∀ item ∈ items, done item (view state) (view after) := by
  induction items generalizing state with
  | nil => exact ⟨state, rfl, rfl, fun _ _ ↦ rfl, by simp⟩
  | cons item items ih =>
    rw [List.pairwise_cons] at hdisjoint
    obtain ⟨hitem, hitems⟩ := hdisjoint
    obtain ⟨between, hact, hfixed, hframe, hdone⟩ :=
      h.returns state item (hready item List.mem_cons_self)
    have hkept (other : Item) (hother : other ∈ items) :
        Set.EqOn (view state) (view between) (region other) :=
      eqOn_of_disjoint hframe (hitem other hother)
    obtain ⟨after, hrest, hfixedRest, hframeRest, hdoneRest⟩ := ih hitems fun other hother ↦
      h.ready_local other _ _ (hkept other hother) (hready other (List.mem_cons_of_mem _ hother))
    have hlast : Set.EqOn (view between) (view after) (region item) := by
      intro cell hcell
      exact (hframeRest cell fun other hother hmem ↦
        Set.disjoint_left.mp (hitem other hother) hcell hmem).symm
    refine ⟨after, ?_, hfixedRest.trans hfixed, ?_, ?_⟩
    · rw [List.foldlM_cons, hact]
      exact hrest
    · intro cell hcell
      calc view after cell
          = view between cell :=
            hframeRest cell fun other hother ↦ hcell other (List.mem_cons_of_mem _ hother)
        _ = view state cell := hframe cell (hcell item List.mem_cons_self)
    · intro other hother
      rcases List.mem_cons.mp hother with rfl | hother
      · exact h.done_local other _ _ _ _ (fun _ _ ↦ rfl) hlast hdone
      · exact h.done_local other _ _ _ _ (hkept other hother).symm (fun _ _ ↦ rfl)
          (hdoneRest other hother)

/-- A pass over items that may be repeated. `first` is the store at the start of the pass. -/
theorem foldlM_of_idle (h : ActsInRegions fixed view act region ready done)
    (hidle : ∀ item state first, ready item first → done item first (view state) →
      act state item = .ok state) {items : List Item}
    (hdisjoint : ∀ item ∈ items, ∀ other ∈ items,
      item = other ∨ Disjoint (region item) (region other))
    {first : Cell → Value} (hready : ∀ item ∈ items, ready item first) {state : State}
    (hstate : ∀ item ∈ items,
      done item first (view state) ∨ Set.EqOn first (view state) (region item)) :
    ∃ after, items.foldlM act state = .ok after ∧ fixed after = fixed state ∧
      (∀ cell, (∀ item ∈ items, cell ∉ region item) → view after cell = view state cell) ∧
      ∀ item ∈ items, done item first (view after) := by
  induction items generalizing state with
  | nil => exact ⟨state, rfl, rfl, fun _ _ ↦ rfl, by simp⟩
  | cons item items ih =>
    have hdisjoint' : ∀ item ∈ items, ∀ other ∈ items,
        item = other ∨ Disjoint (region item) (region other) := fun one hone other hother ↦
      hdisjoint one (List.mem_cons_of_mem _ hone) other (List.mem_cons_of_mem _ hother)
    obtain ⟨between, hact, hfixed, hframe, hdone⟩ : ∃ between, act state item = .ok between ∧
        fixed between = fixed state ∧ (∀ cell ∉ region item, view between cell = view state cell) ∧
        done item first (view between) := by
      rcases hstate item List.mem_cons_self with hdone | hsame
      · exact ⟨state, hidle item state first (hready item List.mem_cons_self) hdone, rfl,
          fun _ _ ↦ rfl, hdone⟩
      · obtain ⟨between, hact, hfixed, hframe, hdone⟩ := h.returns state item
          (h.ready_local item _ _ hsame (hready item List.mem_cons_self))
        exact ⟨between, hact, hfixed, hframe,
          h.done_local item _ _ _ _ hsame.symm (fun _ _ ↦ rfl) hdone⟩
    have hbetween (other : Item) (hother : other ∈ item :: items) :
        done other first (view between) ∨ Set.EqOn first (view between) (region other) := by
      rcases hdisjoint item List.mem_cons_self other hother with rfl | hapart
      · exact Or.inl hdone
      · have hkept : Set.EqOn (view state) (view between) (region other) :=
          eqOn_of_disjoint hframe hapart
        rcases hstate other hother with hdoneOther | hsame
        · exact Or.inl (h.done_local other _ _ _ _ (fun _ _ ↦ rfl) hkept hdoneOther)
        · exact Or.inr (hsame.trans hkept)
    obtain ⟨after, hrest, hfixedRest, hframeRest, hdoneRest⟩ := ih hdisjoint'
      (fun other hother ↦ hready other (List.mem_cons_of_mem _ hother))
      (fun other hother ↦ hbetween other (List.mem_cons_of_mem _ hother))
    refine ⟨after, ?_, hfixedRest.trans hfixed, ?_, ?_⟩
    · rw [List.foldlM_cons, hact]
      exact hrest
    · intro cell hcell
      calc view after cell
          = view between cell :=
            hframeRest cell fun other hother ↦ hcell other (List.mem_cons_of_mem _ hother)
        _ = view state cell := hframe cell (hcell item List.mem_cons_self)
    · intro other hother
      rcases List.mem_cons.mp hother with rfl | hother
      · by_cases hmem : other ∈ items
        · exact hdoneRest other hmem
        · apply h.done_local other _ _ _ _ (fun _ _ ↦ rfl) _ hdone
          intro cell hcell
          apply (hframeRest cell _).symm
          intro one hone hmemOne
          rcases hdisjoint other List.mem_cons_self one (List.mem_cons_of_mem _ hone) with rfl | hapart
          · exact hmem hone
          · exact Set.disjoint_left.mp hapart hcell hmemOne
      · exact hdoneRest other hother

end ActsInRegions

end Flockctl.Transition

/-!
# Broadcast channels

Parties post to a shared channel. A message goes to every party that is connected when it is posted,
other than the sender, and waits in a queue of its own for each receiver: between two parties
messages arrive in the order they were posted, and nothing is said about messages of different
senders. A party that disconnects loses what was on its way to it.
-/

namespace Flockctl.Transition

universe u v

/-- The messages on their way, from each sender to each receiver, the oldest first. -/
abbrev Channels (Party : Type u) (Message : Type v) : Type (max u v) :=
  Party → Party → List Message

namespace Channels

variable {Party : Type u} {Message : Type v}

/-- Nothing is on its way. -/
def empty : Channels Party Message := fun _ _ ↦ []

variable [DecidableEq Party]

/-- The messages, in order, go to every connected party other than the sender. -/
def post (channels : Channels Party Message) (connected : Party → Bool) (sender : Party)
    (messages : List Message) : Channels Party Message :=
  fun source target ↦
    if source = sender ∧ target ≠ sender ∧ connected target then channels source target ++ messages
    else channels source target

/-- The oldest message from the sender to the receiver is taken off its queue. -/
def take (channels : Channels Party Message) (sender receiver : Party) : Channels Party Message :=
  fun source target ↦
    if source = sender ∧ target = receiver then (channels source target).tail
    else channels source target

/-- What is on its way to the party is dropped. -/
def disconnect (channels : Channels Party Message) (party : Party) : Channels Party Message :=
  fun source target ↦ if target = party then [] else channels source target

variable (channels : Channels Party Message) {connected : Party → Bool} {sender receiver : Party}
  {source target : Party} {messages : List Message} {message : Message}

theorem post_of_ne_sender (h : source ≠ sender) :
    channels.post connected sender messages source target = channels source target := by
  simp [post, h]

theorem post_connected (hne : target ≠ sender) (hconnected : connected target) :
    channels.post connected sender messages sender target = channels sender target ++ messages := by
  simp [post, hne, hconnected]

@[simp] theorem post_nil :
    channels.post connected sender [] source target = channels source target := by
  simp [post]

/-- A queue either stays as it is or gets what the sender posts. -/
theorem post_eq_or (connected : Party → Bool) (sender source target : Party)
    (messages : List Message) :
    channels.post connected sender messages source target = channels source target ∨
      (source = sender ∧ target ≠ sender ∧ connected target ∧
        channels.post connected sender messages source target =
          channels source target ++ messages) := by
  by_cases h : source = sender ∧ target ≠ sender ∧ connected target
  · exact Or.inr ⟨h.1, h.2.1, h.2.2, by simp [post, h]⟩
  · exact Or.inl (by simp only [post, h, if_false])

theorem mem_post_of_mem (h : message ∈ channels source target) :
    message ∈ channels.post connected sender messages source target := by
  rcases channels.post_eq_or connected sender source target messages with heq | ⟨-, -, -, heq⟩
  · rwa [heq]
  · rw [heq]
    exact List.mem_append_left messages h

theorem mem_post_of_connected (hne : target ≠ sender) (hconnected : connected target)
    (h : message ∈ messages) : message ∈ channels.post connected sender messages sender target := by
  rw [channels.post_connected hne hconnected]
  exact List.mem_append_right _ h

theorem take_of_ne_receiver (h : target ≠ receiver) :
    channels.take sender receiver source target = channels source target := by
  simp [take, h]

/-- A queue is what it was, or its tail. -/
theorem take_eq_or (sender receiver source target : Party) :
    channels.take sender receiver source target = channels source target ∨
      (source = sender ∧ target = receiver ∧
        channels.take sender receiver source target = (channels source target).tail) := by
  by_cases h : source = sender ∧ target = receiver
  · exact Or.inr ⟨h.1, h.2, by simp [take, h]⟩
  · exact Or.inl (by simp only [take, h, if_false])

theorem mem_of_mem_take (h : message ∈ channels.take sender receiver source target) :
    message ∈ channels source target := by
  rcases channels.take_eq_or sender receiver source target with heq | ⟨-, -, heq⟩
  · rwa [heq] at h
  · rw [heq] at h
    exact List.mem_of_mem_tail h

@[simp] theorem disconnect_self : channels.disconnect target source target = [] := by
  simp [disconnect]

theorem disconnect_of_ne {party : Party} (h : target ≠ party) :
    channels.disconnect party source target = channels source target := by
  simp [disconnect, h]

/-- The message that arrives last in a queue that has lost its oldest one arrived last before. -/
theorem getLast?_take (h : (channels.take sender receiver source target).getLast? = some message) :
    (channels source target).getLast? = some message := by
  rcases channels.take_eq_or sender receiver source target with heq | ⟨-, -, heq⟩
  · rwa [heq] at h
  · rw [heq] at h
    cases hqueue : channels source target with
    | nil => simp [hqueue] at h
    | cons first rest =>
      rw [hqueue, List.tail_cons] at h
      rw [List.getLast?_cons, h]
      rfl

end Channels

end Flockctl.Transition
