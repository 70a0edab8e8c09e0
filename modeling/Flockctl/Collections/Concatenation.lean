import Mathlib.Algebra.GroupWithZero.Nat
import Mathlib.Data.List.Infix

/-!
# Texts in parts

A sequence of items stands for the texts that can be cut into one part for each item, each part
being one of those that its item stands for.
-/

namespace Flockctl.Collections

variable {ι α : Type} {Means Means' : ι → List α → Prop}

/-- The text is cut into parts that the items stand for. -/
def Covers (Means : ι → List α → Prop) : List ι → List α → Prop
  | [], text => text = []
  | item :: rest, text =>
    ∃ part behind, text = part ++ behind ∧ Means item part ∧ Covers Means rest behind

theorem Covers.cons {item : ι} {items : List ι} {part text : List α} (hpart : Means item part)
    (h : Covers Means items text) : Covers Means (item :: items) (part ++ text) :=
  ⟨part, text, rfl, hpart, h⟩

theorem covers_append_iff {front back : List ι} {text : List α} :
    Covers Means (front ++ back) text ↔
      ∃ first second, text = first ++ second ∧ Covers Means front first ∧
        Covers Means back second := by
  induction front generalizing text with
  | nil =>
    constructor
    · intro h
      exact ⟨[], text, rfl, rfl, h⟩
    · rintro ⟨first, second, rfl, rfl, h⟩
      exact h
  | cons item rest ih =>
    constructor
    · rintro ⟨part, behind, rfl, hpart, hbehind⟩
      obtain ⟨first, second, rfl, hfirst, hsecond⟩ := ih.mp hbehind
      exact ⟨part ++ first, second, (List.append_assoc _ _ _).symm, hfirst.cons hpart, hsecond⟩
    · rintro ⟨first, second, rfl, ⟨part, behind, rfl, hpart, hbehind⟩, hsecond⟩
      rw [List.append_assoc]
      exact (ih.mpr ⟨behind, second, rfl, hbehind, hsecond⟩).cons hpart

/-- An item may stand for more parts, of those that the text has. -/
theorem Covers.mono {items : List ι} {text : List α} (h : Covers Means items text)
    (himp : ∀ item ∈ items, ∀ part, part <:+: text → Means item part → Means' item part) :
    Covers Means' items text := by
  induction items generalizing text with
  | nil => exact h
  | cons item rest ih =>
    obtain ⟨part, behind, rfl, hpart, hbehind⟩ := h
    refine (ih hbehind ?_).cons (himp item List.mem_cons_self part ?_ hpart)
    · intro other hother infix' hinfix
      apply himp other (List.mem_cons_of_mem item hother)
      exact hinfix.trans (List.suffix_append part behind).isInfix
    · exact (List.prefix_append part behind).isInfix

/-- A text that takes a part from every item. -/
theorem covers_flatMap {items : List ι} {take : ι → List α}
    (h : ∀ item ∈ items, Means item (take item)) : Covers Means items (items.flatMap take) := by
  induction items with
  | nil => rfl
  | cons item rest ih =>
    rw [List.flatMap_cons]
    exact (ih fun other hother ↦ h other (List.mem_cons_of_mem item hother)).cons
      (h item List.mem_cons_self)

/-- A measure of texts is at most the sum over the items, where it is so for the parts. -/
theorem Covers.measure_le {items : List ι} {text : List α} (h : Covers Means items text)
    (measure : List α → ℕ) (bound : ι → ℕ) (hnil : measure [] = 0)
    (happend : ∀ front back, measure (front ++ back) ≤ measure front + measure back + 1)
    (hpart : ∀ item ∈ items, ∀ part, Means item part → measure part ≤ bound item) :
    measure text ≤ (items.map bound).sum + items.length := by
  induction items generalizing text with
  | nil => rw [show text = [] from h, hnil]; exact Nat.zero_le _
  | cons item rest ih =>
    obtain ⟨part, behind, rfl, hmeans, hbehind⟩ := h
    have hfirst := hpart item List.mem_cons_self part hmeans
    have hrest := ih hbehind fun other hother ↦ hpart other (List.mem_cons_of_mem item hother)
    have hboth := happend part behind
    rw [List.map_cons, List.sum_cons, List.length_cons]
    omega

end Flockctl.Collections
