import Flockctl.Collections.JsMap
import Mathlib.Algebra.BigOperators.Group.Finset.Piecewise

/-!
# Amounts that are delivered more than once

A delivery is a key with an amount. One key may be delivered any number of times, always with the
same amount. What is due is the amount of every key once; adding up all deliveries exceeds it by
the amounts of the repeated ones.
-/

open scoped BigOperators

namespace Flockctl.Collections

universe u v

variable {Key : Type u} {Amount : Type v}

/-- No key is delivered with two amounts. -/
def Consistent (deliveries : List (Key × Amount)) : Prop :=
  ∀ x ∈ deliveries, ∀ y ∈ deliveries, x.1 = y.1 → x.2 = y.2

instance [DecidableEq Key] [DecidableEq Amount] (deliveries : List (Key × Amount)) :
    Decidable (Consistent deliveries) :=
  inferInstanceAs (Decidable (∀ x ∈ deliveries, ∀ y ∈ deliveries, x.1 = y.1 → x.2 = y.2))

theorem Consistent.of_subset {xs ys : List (Key × Amount)} (h : Consistent ys) (hsub : xs ⊆ ys) :
    Consistent xs :=
  fun x hx y hy heq ↦ h x (hsub hx) y (hsub hy) heq

variable [DecidableEq Key]

def deliveredKeys (deliveries : List (Key × Amount)) : Finset Key :=
  (deliveries.map Prod.fst).toFinset

@[simp] theorem mem_deliveredKeys {deliveries : List (Key × Amount)} {key : Key} :
    key ∈ deliveredKeys deliveries ↔ ∃ x ∈ deliveries, x.1 = key := by
  simp [deliveredKeys]

theorem deliveredKeys_append (xs ys : List (Key × Amount)) :
    deliveredKeys (xs ++ ys) = deliveredKeys xs ∪ deliveredKeys ys := by
  ext key
  simp [deliveredKeys]

variable [AddCommMonoid Amount]

/-- The amount a key is delivered with. -/
def amountOf (deliveries : List (Key × Amount)) (key : Key) : Amount :=
  ((deliveries.find? fun x ↦ x.1 = key).map Prod.snd).getD 0

/-- What is due: the amount of every delivered key, once. -/
def due (deliveries : List (Key × Amount)) : Amount :=
  ∑ key ∈ deliveredKeys deliveries, amountOf deliveries key

/-- What the deliveries of a key after its first one add. -/
def surplus (deliveries : List (Key × Amount)) : Amount :=
  ∑ key ∈ deliveredKeys deliveries,
    ((deliveries.map Prod.fst).count key - 1) • amountOf deliveries key

/-- What the keys add that only the later deliveries have. -/
def freshDue (earlier later : List (Key × Amount)) : Amount :=
  ∑ key ∈ deliveredKeys later \ deliveredKeys earlier, amountOf later key

theorem amountOf_eq {deliveries : List (Key × Amount)} (h : Consistent deliveries)
    {x : Key × Amount} (hx : x ∈ deliveries) : amountOf deliveries x.1 = x.2 := by
  unfold amountOf
  cases hfind : deliveries.find? fun y ↦ y.1 = x.1 with
  | none =>
    have hne := List.find?_eq_none.mp hfind x hx
    simp at hne
  | some y =>
    have hkey : y.1 = x.1 := by simpa using List.find?_some hfind
    exact h y (List.mem_of_find?_eq_some hfind) x hx hkey

/-- Adding up every delivery counts what is due and the surplus. -/
theorem sum_eq_due_add_surplus {deliveries : List (Key × Amount)} (h : Consistent deliveries) :
    (deliveries.map Prod.snd).sum = due deliveries + surplus deliveries := by
  have hamounts : deliveries.map Prod.snd =
      (deliveries.map Prod.fst).map (amountOf deliveries) := by
    rw [List.map_map]
    apply List.map_congr_left
    intro x hx
    exact (amountOf_eq h hx).symm
  calc
    (deliveries.map Prod.snd).sum
        = ∑ key ∈ deliveredKeys deliveries,
            (deliveries.map Prod.fst).count key • amountOf deliveries key := by
      rw [hamounts, Finset.sum_list_map_count]
      rfl
    _ = ∑ key ∈ deliveredKeys deliveries, (amountOf deliveries key +
            ((deliveries.map Prod.fst).count key - 1) • amountOf deliveries key) := by
      apply Finset.sum_congr rfl
      intro key hkey
      have hpos : 0 < (deliveries.map Prod.fst).count key :=
        List.count_pos_iff.mpr (List.mem_toFinset.mp hkey)
      rw [← succ_nsmul', Nat.sub_add_cancel hpos]
    _ = due deliveries + surplus deliveries := Finset.sum_add_distrib

theorem amountOf_append_left {xs ys : List (Key × Amount)} {key : Key}
    (h : key ∈ deliveredKeys xs) : amountOf (xs ++ ys) key = amountOf xs key := by
  obtain ⟨x, hx, hkey⟩ := mem_deliveredKeys.mp h
  have hfound : (xs.find? fun y ↦ y.1 = key).isSome := by
    rw [List.find?_isSome]
    exact ⟨x, hx, by simpa using hkey⟩
  unfold amountOf
  rw [List.find?_append, Option.or_of_isSome hfound]

theorem amountOf_append_right {xs ys : List (Key × Amount)} {key : Key}
    (h : key ∉ deliveredKeys xs) : amountOf (xs ++ ys) key = amountOf ys key := by
  have hmissing : (xs.find? fun y ↦ y.1 = key) = none := by
    rw [List.find?_eq_none]
    intro x hx hkey
    exact h (mem_deliveredKeys.mpr ⟨x, hx, by simpa using hkey⟩)
  unfold amountOf
  rw [List.find?_append, hmissing, Option.none_or]

/-- Later deliveries make due what only they have. -/
theorem due_append (xs ys : List (Key × Amount)) :
    due (xs ++ ys) = due xs + freshDue xs ys := by
  have hdisjoint : Disjoint (deliveredKeys xs) (deliveredKeys ys \ deliveredKeys xs) :=
    Finset.disjoint_sdiff
  calc
    due (xs ++ ys)
        = ∑ key ∈ deliveredKeys xs ∪ (deliveredKeys ys \ deliveredKeys xs),
            amountOf (xs ++ ys) key := by
      rw [due, deliveredKeys_append, Finset.union_sdiff_self_eq_union]
    _ = ∑ key ∈ deliveredKeys xs, amountOf (xs ++ ys) key +
          ∑ key ∈ deliveredKeys ys \ deliveredKeys xs, amountOf (xs ++ ys) key :=
      Finset.sum_union hdisjoint
    _ = due xs + freshDue xs ys := by
      congr 1
      · exact Finset.sum_congr rfl fun key hkey ↦ amountOf_append_left hkey
      · exact Finset.sum_congr rfl fun key hkey ↦
          amountOf_append_right (Finset.mem_sdiff.mp hkey).2

/-- Nothing is due exactly when every delivery is empty, where amounts do not cancel out. -/
theorem due_eq_zero_iff [Subsingleton (AddUnits Amount)] {deliveries : List (Key × Amount)}
    (h : Consistent deliveries) : due deliveries = 0 ↔ ∀ x ∈ deliveries, x.2 = 0 := by
  rw [due, Finset.sum_eq_zero_iff]
  constructor
  · intro hzero x hx
    rw [← amountOf_eq h hx]
    exact hzero x.1 (mem_deliveredKeys.mpr ⟨x, hx, rfl⟩)
  · intro hzero key hkey
    obtain ⟨x, hx, rfl⟩ := mem_deliveredKeys.mp hkey
    rw [amountOf_eq h hx]
    exact hzero x hx

end Flockctl.Collections

/-!
# Maps that index a bag of holdings

Several holders each hold one value, and a map is kept so that a holder's value can be looked up.
The bag says what is really held, the map is the bookkeeping. They agree when no holder holds two
values and the map finds exactly the values of the bag. Granting to a holder without a value and
giving a held value back keep them in agreement; granting twice to one holder does not, because
the map has room for one value only.
-/

namespace Flockctl.Collections

universe u v

variable {Key : Type u} {Value : Type v} [DecidableEq Key]

/-- The map finds exactly the values of the bag, and no holder holds two. -/
structure Indexes (map : JsMap Key Value) (bag : Multiset (Key × Value)) : Prop where
  single : (bag.map Prod.fst).Nodup
  get_iff : ∀ key value, map.get key = some value ↔ (key, value) ∈ bag

namespace Indexes

variable {map : JsMap Key Value} {bag : Multiset (Key × Value)}

theorem empty : Indexes (JsMap.empty : JsMap Key Value) 0 where
  single := by simp
  get_iff key value := by simp

/-- A holder without an entry holds nothing. -/
theorem not_holding (h : Indexes map bag) {key : Key} (hkey : map.get key = none) :
    key ∉ bag.map Prod.fst := by
  intro hmem
  obtain ⟨⟨holder, value⟩, hheld, hholder⟩ := Multiset.mem_map.mp hmem
  change holder = key at hholder
  have hget : map.get holder = some value := (h.get_iff holder value).mpr hheld
  rw [hholder, hkey] at hget
  cases hget

/-- A value is granted to a holder without one. -/
theorem set (h : Indexes map bag) {key : Key} (hkey : map.get key = none) (value : Value) :
    Indexes (map.set key value) ((key, value) ::ₘ bag) where
  single := by
    rw [Multiset.map_cons, Multiset.nodup_cons]
    exact ⟨h.not_holding hkey, h.single⟩
  get_iff other stored := by
    rw [JsMap.get_set, Multiset.mem_cons, Prod.mk.injEq]
    split
    · rename_i hother
      have habsent : (other, stored) ∉ bag := by
        rw [← h.get_iff, hother, hkey]
        simp
      simp [hother, eq_comm, hother ▸ habsent]
    · rename_i hother
      simp [hother, h.get_iff]

/-- A held value is given back. -/
theorem delete {key : Key} {value : Value} (h : Indexes map ((key, value) ::ₘ bag)) :
    Indexes (map.delete key) bag := by
  have hsingle := h.single
  rw [Multiset.map_cons, Multiset.nodup_cons] at hsingle
  refine ⟨hsingle.2, ?_⟩
  intro other stored
  rw [JsMap.get_delete]
  split
  · rename_i hother
    have habsent : (other, stored) ∉ bag := by
      intro hmem
      apply hsingle.1
      exact Multiset.mem_map.mpr ⟨(other, stored), hmem, hother⟩
    simp [habsent]
  · rename_i hother
    rw [h.get_iff, Multiset.mem_cons, Prod.mk.injEq]
    simp [hother]

/-- Nothing is listed when nothing is held. -/
theorem entries_eq_nil (h : Indexes map 0) : map.entries = [] := by
  rw [JsMap.entries_eq_nil_iff]
  intro key
  cases hkey : map.get key with
  | none => rfl
  | some value =>
    have hmem := (h.get_iff key value).mp hkey
    simp at hmem

end Indexes

end Flockctl.Collections
