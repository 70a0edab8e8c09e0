import Mathlib.Data.List.DropRight
import Mathlib.Tactic.Linarith
import Mathlib.Tactic.Ring

/-!
# Integers that are doubles

A number of the language holds an integer with 53 binary digits at most, whatever its size. An
integer that needs more of them is rounded to the nearest one that does not, to an even one between
two. Numbers below `2 ^ 53` are held as they are, and rounding keeps the order.
-/

namespace Flockctl.Collections

/-- The place of the last binary digit that a number of this size holds. -/
def lastPlace (n : ℕ) : ℕ := n.log2 + 1 - 53

/-- `n` rounded to a multiple of `unit`, to an even multiple between two. -/
def roundTo (unit n : ℕ) : ℕ :=
  if 2 * (n % unit) < unit ∨ 2 * (n % unit) = unit ∧ n / unit % 2 = 0 then n / unit * unit
  else (n / unit + 1) * unit

/-- The double nearest to an integer. -/
def doubleOf (n : ℕ) : ℕ := roundTo (2 ^ lastPlace n) n

section

variable {unit : ℕ}

theorem roundTo_of_dvd (hunit : 0 < unit) {n : ℕ} (h : unit ∣ n) : roundTo unit n = n := by
  have hrest : n % unit = 0 := Nat.mod_eq_zero_of_dvd h
  rw [roundTo, hrest, if_pos (Or.inl (by omega)), Nat.div_mul_cancel h]

/-- What is rounded stays between the same two multiples. -/
theorem roundTo_bounds (n : ℕ) :
    n / unit * unit ≤ roundTo unit n ∧ roundTo unit n ≤ (n / unit + 1) * unit := by
  have hstep : (n / unit + 1) * unit = n / unit * unit + unit := by ring
  unfold roundTo
  split <;> omega

theorem dvd_roundTo (n : ℕ) : unit ∣ roundTo unit n := by
  unfold roundTo
  split
  · exact Nat.dvd_mul_left _ _
  · exact Nat.dvd_mul_left _ _

/-- A multiple that bounds a number bounds what the number is rounded to. -/
theorem roundTo_le_of_le (hunit : 0 < unit) {n m : ℕ} (h : n ≤ m * unit) :
    roundTo unit n ≤ m * unit := by
  rcases h.eq_or_lt with heq | hlt
  · rw [heq, roundTo_of_dvd hunit (Nat.dvd_mul_left _ _)]
  · have hquot : n / unit + 1 ≤ m := (Nat.div_lt_iff_lt_mul hunit).mpr hlt
    calc roundTo unit n ≤ (n / unit + 1) * unit := (roundTo_bounds n).2
      _ ≤ m * unit := Nat.mul_le_mul_right unit hquot

theorem le_roundTo_of_le (hunit : 0 < unit) {n m : ℕ} (h : m * unit ≤ n) :
    m * unit ≤ roundTo unit n := by
  have hquot : m ≤ n / unit := (Nat.le_div_iff_mul_le hunit).mpr h
  calc m * unit ≤ n / unit * unit := Nat.mul_le_mul_right unit hquot
    _ ≤ roundTo unit n := (roundTo_bounds n).1

theorem roundTo_mono (hunit : 0 < unit) {n m : ℕ} (h : n ≤ m) :
    roundTo unit n ≤ roundTo unit m := by
  have hquot : n / unit ≤ m / unit := Nat.div_le_div_right h
  rcases hquot.eq_or_lt with heq | hlt
  · have hn := Nat.div_add_mod n unit
    have hm := Nat.div_add_mod m unit
    have hrest : n % unit ≤ m % unit := by
      rw [heq] at hn
      omega
    have hstep : (m / unit + 1) * unit = m / unit * unit + unit := by ring
    unfold roundTo
    rw [heq]
    split_ifs <;> omega
  · calc roundTo unit n ≤ (n / unit + 1) * unit := (roundTo_bounds n).2
      _ ≤ m / unit * unit := Nat.mul_le_mul_right unit hlt
      _ ≤ roundTo unit m := (roundTo_bounds m).1

end

theorem lastPlace_mono {n m : ℕ} (h : n ≤ m) : lastPlace n ≤ lastPlace m := by
  rcases Nat.eq_zero_or_pos n with hzero | hpos
  · subst hzero
    simp [lastPlace]
  · have hlog : n.log2 ≤ m.log2 :=
      (Nat.le_log2 (by omega)).mpr ((Nat.log2_self_le (by omega)).trans h)
    unfold lastPlace
    omega

theorem lt_two_pow_lastPlace (n : ℕ) : n < 2 ^ 53 * 2 ^ lastPlace n := by
  calc n < 2 ^ (n.log2 + 1) := Nat.lt_log2_self
    _ ≤ 2 ^ (53 + lastPlace n) := Nat.pow_le_pow_right (by decide) (by unfold lastPlace; omega)
    _ = 2 ^ 53 * 2 ^ lastPlace n := pow_add 2 53 _

/-- Where digits are dropped, 53 of them are left. -/
theorem two_pow_lastPlace_le {n : ℕ} (h : 0 < lastPlace n) : 2 ^ 52 * 2 ^ lastPlace n ≤ n := by
  have hlog : 52 + lastPlace n = n.log2 := by
    unfold lastPlace at h ⊢
    omega
  have hne : n ≠ 0 := by
    rintro rfl
    exact absurd h (by decide)
  rw [← pow_add, hlog]
  exact Nat.log2_self_le hne

theorem doubleOf_mono {n m : ℕ} (h : n ≤ m) : doubleOf n ≤ doubleOf m := by
  rcases (lastPlace_mono h).eq_or_lt with heq | hlt
  · rw [doubleOf, doubleOf, heq]
    exact roundTo_mono (Nat.two_pow_pos _) h
  · have hsplit : 2 ^ 53 * 2 ^ lastPlace n ≤ 2 ^ 52 * 2 ^ lastPlace m := by
      rw [← pow_add, ← pow_add]
      exact Nat.pow_le_pow_right (by decide) (by omega)
    calc doubleOf n ≤ 2 ^ 53 * 2 ^ lastPlace n :=
          roundTo_le_of_le (Nat.two_pow_pos _) (lt_two_pow_lastPlace n).le
      _ ≤ 2 ^ 52 * 2 ^ lastPlace m := hsplit
      _ ≤ doubleOf m := le_roundTo_of_le (Nat.two_pow_pos _) (two_pow_lastPlace_le (by omega))

/-- A double is not rounded again. -/
theorem doubleOf_doubleOf (n : ℕ) : doubleOf (doubleOf n) = doubleOf n := by
  have hle : doubleOf n ≤ 2 ^ 53 * 2 ^ lastPlace n :=
    roundTo_le_of_le (Nat.two_pow_pos _) (lt_two_pow_lastPlace n).le
  have hdvd : 2 ^ lastPlace n ∣ doubleOf n := dvd_roundTo n
  apply roundTo_of_dvd (Nat.two_pow_pos _)
  rcases hle.eq_or_lt with heq | hlt
  · -- the digits carry over to the next power of two
    rw [heq, ← pow_add]
    apply pow_dvd_pow
    have hlog : (2 ^ (53 + lastPlace n)).log2 = 53 + lastPlace n := Nat.log2_two_pow
    unfold lastPlace at hlog ⊢
    omega
  · apply dvd_trans _ hdvd
    apply pow_dvd_pow
    rw [← pow_add] at hlt
    rcases Nat.eq_zero_or_pos (doubleOf n) with hzero | hpos
    · rw [hzero]
      exact Nat.zero_le _
    · have hlog : (doubleOf n).log2 < 53 + lastPlace n := (Nat.log2_lt (by omega)).mpr hlt
      rw [lastPlace]
      omega

/-- Adding one to a double gives a larger one unless the sum is rounded back. -/
theorem lt_doubleOf_succ_iff {n last : ℕ} (hn : doubleOf n = n) (hlast : doubleOf last = last) :
    n < doubleOf (last + 1) ↔ n ≤ last ∧ (n = last → doubleOf (last + 1) ≠ last) := by
  have hnext : last ≤ doubleOf (last + 1) := by
    calc last = doubleOf last := hlast.symm
      _ ≤ doubleOf (last + 1) := doubleOf_mono (Nat.le_succ last)
  constructor
  · intro hlt
    refine ⟨?_, fun heq ↦ by omega⟩
    by_contra hle
    have hback : doubleOf (last + 1) ≤ n := by
      calc doubleOf (last + 1) ≤ doubleOf n := doubleOf_mono (by omega)
        _ = n := hn
    omega
  · rintro ⟨hle, hne⟩
    rcases hle.eq_or_lt with heq | hlt
    · have hdiffers := hne heq
      omega
    · omega

/-- The multiple of `unit` that is nearest to a double among the two next to it that are rounded to
this double. -/
def nearestAt (double unit : ℕ) : Option ℕ :=
  let below := double / unit * unit
  let above := below + unit
  let belowFits := doubleOf below == double
  let aboveFits := doubleOf above == double
  if belowFits && (!aboveFits || decide (double - below < above - double) ||
      decide (double - below = above - double) && double / unit % 2 == 0) then some below
  else if aboveFits then some above
  else none

/-- The decimal with the fewest digits before its zeros that is rounded to this double. -/
def decimalOf (double : ℕ) : ℕ :=
  let places := (List.range (Nat.toDigits 10 double).length).reverse
  (places.findSome? fun place ↦ nearestAt double (10 ^ place)).getD double

theorem doubleOf_of_nearestAt {double unit decimal : ℕ} (h : nearestAt double unit = some decimal) :
    doubleOf decimal = double := by
  simp only [nearestAt] at h
  split at h
  · next hbelow =>
    cases h
    exact beq_iff_eq.mp (Bool.and_eq_true_iff.mp hbelow).1
  · split at h
    · next habove =>
      cases h
      exact beq_iff_eq.mp habove
    · cases h

/-- The decimal stands for the double it is made from. -/
theorem doubleOf_decimalOf {double : ℕ} (hdouble : doubleOf double = double) :
    doubleOf (decimalOf double) = double := by
  rw [decimalOf]
  cases hfound : ((List.range (Nat.toDigits 10 double).length).reverse.findSome? fun place ↦
      nearestAt double (10 ^ place)) with
  | none => exact hdouble
  | some decimal =>
    obtain ⟨place, -, hplace⟩ := List.exists_of_findSome?_eq_some hfound
    exact doubleOf_of_nearestAt hplace

/-- The decimals of the doubles below `10 ^ 21` are below it. -/
theorem decimalOf_lt_iff {double : ℕ} (hdouble : doubleOf double = double) :
    decimalOf double < 10 ^ 21 ↔ double < 10 ^ 21 := by
  have hlimit : doubleOf (10 ^ 21) = 10 ^ 21 := by decide
  have hback := doubleOf_decimalOf hdouble
  constructor
  · intro hlt
    have hle : double ≤ 10 ^ 21 := by
      calc double = doubleOf (decimalOf double) := hback.symm
        _ ≤ doubleOf (10 ^ 21) := doubleOf_mono hlt.le
        _ = 10 ^ 21 := hlimit
    apply lt_of_le_of_ne hle
    rintro rfl
    exact absurd hlt (by decide +kernel)
  · intro hlt
    by_contra hge
    have hle : 10 ^ 21 ≤ double := by
      calc 10 ^ 21 = doubleOf (10 ^ 21) := hlimit.symm
        _ ≤ doubleOf (decimalOf double) := doubleOf_mono (not_lt.mp hge)
        _ = double := hback
    omega

/-- `String(number)` of an integer that is a double. -/
def numberText (double : ℕ) : String :=
  let digits := Nat.toDigits 10 (decimalOf double)
  if decimalOf double < 10 ^ 21 then String.ofList digits
  else
    let leading := digits.rdropWhile (· == '0')
    String.ofList (match leading with
      | [] => []
      | [digit] => [digit]
      | digit :: rest => digit :: '.' :: rest) ++ "e+" ++ Nat.repr (digits.length - 1)

theorem toList_numberText_of_lt {double : ℕ} (h : decimalOf double < 10 ^ 21) :
    (numberText double).toList = Nat.toDigits 10 (decimalOf double) := by
  rw [numberText, if_pos h, String.toList_ofList]

/-- From `10 ^ 21` on a number is written with an exponent. -/
theorem plus_mem_numberText {double : ℕ} (h : ¬ decimalOf double < 10 ^ 21) :
    '+' ∈ (numberText double).toList := by
  rw [numberText, if_neg h]
  simp

end Flockctl.Collections
