import Mathlib.Data.List.Infix
import Mathlib.Order.Bounds.Defs
import Mathlib.Order.MinMax

/-!
# Common subsequences

The length of a longest common subsequence of two lists, by comparing their heads.
-/

namespace Flockctl.Collections

variable {α : Type} [DecidableEq α]

def lcsLength : List α → List α → ℕ
  | [], _ => 0
  | _ :: _, [] => 0
  | x :: xs, y :: ys =>
    if x = y then lcsLength xs ys + 1 else max (lcsLength xs (y :: ys)) (lcsLength (x :: xs) ys)
  termination_by xs ys => xs.length + ys.length

@[simp] theorem lcsLength_nil_left (ys : List α) : lcsLength [] ys = 0 := by rw [lcsLength]

@[simp] theorem lcsLength_nil_right (xs : List α) : lcsLength xs [] = 0 := by
  cases xs with
  | nil => rw [lcsLength]
  | cons x xs => rw [lcsLength]

/-- The lengths of the common subsequences of two lists. -/
def commonLengths (xs ys : List α) : Set ℕ :=
  {n | ∃ common : List α, common.Sublist xs ∧ common.Sublist ys ∧ common.length = n}

omit [DecidableEq α] in
theorem commonLengths_mono {xs xs' ys ys' : List α} (hxs : xs.Sublist xs')
    (hys : ys.Sublist ys') : commonLengths xs ys ⊆ commonLengths xs' ys' := by
  rintro n ⟨common, hleft, hright, hlength⟩
  exact ⟨common, hleft.trans hxs, hright.trans hys, hlength⟩

theorem lcsLength_mem (xs ys : List α) : lcsLength xs ys ∈ commonLengths xs ys := by
  fun_induction lcsLength xs ys with
  | case1 ys => exact ⟨[], List.nil_sublist _, List.nil_sublist _, rfl⟩
  | case2 x xs => exact ⟨[], List.nil_sublist _, List.nil_sublist _, rfl⟩
  | case3 xs y ys ih =>
    obtain ⟨common, hleft, hright, hlength⟩ := ih
    exact ⟨y :: common, hleft.cons_cons y, hright.cons_cons y, by rw [List.length_cons, hlength]⟩
  | case4 x xs y ys hne ihleft ihright =>
    rcases max_choice (lcsLength xs (y :: ys)) (lcsLength (x :: xs) ys) with hmax | hmax
    · rw [hmax]
      exact commonLengths_mono (List.sublist_cons_self x xs) (List.Sublist.refl _) ihleft
    · rw [hmax]
      exact commonLengths_mono (List.Sublist.refl _) (List.sublist_cons_self y ys) ihright

omit [DecidableEq α] in
/-- A common subsequence leaves out one of two different heads. -/
theorem sublist_of_heads_ne {common xs ys : List α} {x y : α} (hne : x ≠ y)
    (hleft : common.Sublist (x :: xs)) (hright : common.Sublist (y :: ys)) :
    common.Sublist xs ∨ common.Sublist ys := by
  rcases List.sublist_cons_iff.mp hleft with hxs | ⟨rest, rfl, -⟩
  · exact Or.inl hxs
  · right
    rcases List.sublist_cons_iff.mp hright with hys | ⟨rest', heq, -⟩
    · exact hys
    · exact absurd (List.cons.inj heq).1 hne

theorem le_lcsLength {xs ys common : List α} (hleft : common.Sublist xs)
    (hright : common.Sublist ys) : common.length ≤ lcsLength xs ys := by
  fun_induction lcsLength xs ys generalizing common with
  | case1 ys => rw [List.sublist_nil.mp hleft, List.length_nil]
  | case2 x xs => rw [List.sublist_nil.mp hright, List.length_nil]
  | case3 xs y ys ih =>
    have htail := ih hleft.tail hright.tail
    rw [List.length_tail] at htail
    omega
  | case4 x xs y ys hne ihleft ihright =>
    rcases sublist_of_heads_ne hne hleft hright with hxs | hys
    · exact (ihleft hxs hright).trans (le_max_left _ _)
    · exact (ihright hleft hys).trans (le_max_right _ _)

theorem lcsLength_isGreatest (xs ys : List α) :
    IsGreatest (commonLengths xs ys) (lcsLength xs ys) := by
  refine ⟨lcsLength_mem xs ys, ?_⟩
  rintro n ⟨common, hleft, hright, rfl⟩
  exact le_lcsLength hleft hright

end Flockctl.Collections
