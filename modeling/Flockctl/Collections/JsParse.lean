import Flockctl.Collections.JsInteger
import Flockctl.Collections.JsText

/-!
# Untrusted values

What a field of type `unknown` can hold, as far as a number is wanted. Every finite double is a
rational number.
-/

namespace Flockctl.Collections

inductive JsNumber
  | nan
  | infinity (negative : Bool)
  | finite (value : Rat)
  deriving DecidableEq

inductive JsValue
  | undefined
  | null
  | boolean (value : Bool)
  | string (value : String)
  | object
  | number (value : JsNumber)
  deriving DecidableEq

end Flockctl.Collections

/-!
# Reading a number

`Number.parseInt(text, 10)` passes over white space, takes a sign and as many digits as there are,
and gives the double next to the number. Without a digit it gives no number, and past the largest
double it gives an infinity.
-/

namespace Flockctl.Collections

/-- The digits at the front of a text as a number. -/
def parseDigits (negative : Bool) (text : List Char) : JsNumber :=
  let digits := text.takeWhile Char.isDigit
  let value := doubleOf (Nat.ofDigitChars 10 digits 0)
  if digits = [] then .nan
  else if 2 ^ 1024 ≤ value then .infinity negative
  else .finite (if negative then -value else value)

/-- `Number.parseInt(text, 10)`. -/
def parseInt (text : List Char) : JsNumber :=
  match text.dropWhile isWhitespace with
  | '-' :: rest => parseDigits true rest
  | '+' :: rest => parseDigits false rest
  | rest => parseDigits false rest

theorem isWhitespace_of_isDigit {c : Char} (h : c.isDigit = true) : isWhitespace c = false := by
  simp only [Char.isDigit, Bool.and_eq_true, decide_eq_true_eq] at h
  have hlow : '0' ≤ c := h.1
  have hhigh : c ≤ '9' := h.2
  exact isWhitespace_of_graphic (Char.le_trans (by decide) hlow) (Char.le_trans hhigh (by decide))

theorem isDigit_of_mem {n : ℕ} {c : Char} (hc : c ∈ Nat.toDigits 10 n) : c.isDigit = true :=
  Nat.isDigit_of_mem_toDigits (by decide) (by decide) hc

theorem toDigits_eq_cons (n : ℕ) :
    ∃ c rest, Nat.toDigits 10 n = c :: rest ∧ c.isDigit = true := by
  obtain ⟨c, rest, hdigits⟩ := List.exists_cons_of_ne_nil (Nat.toDigits_ne_nil (n := n) (b := 10))
  exact ⟨c, rest, hdigits, isDigit_of_mem (hdigits ▸ List.mem_cons_self)⟩

theorem parseInt_toDigits {n : ℕ} (h : n < 2 ^ 64) :
    parseInt (Nat.toDigits 10 n) = .finite (doubleOf n) := by
  have hvalue : Nat.ofDigitChars 10 (Nat.toDigits 10 n) 0 = n := Nat.ofDigitChars_ten_toDigits
  have hbound : doubleOf (2 ^ 64) = 2 ^ 64 := by decide
  have hfinite {bits : ℕ} (hbits : 64 < bits) : doubleOf n < 2 ^ bits :=
    ((doubleOf_mono h.le).trans_eq hbound).trans_lt (Nat.pow_lt_pow_right (by decide) hbits)
  obtain ⟨c, rest, hnumber, hfirst⟩ := toDigits_eq_cons n
  have hparsed : parseInt (Nat.toDigits 10 n) = parseDigits false (Nat.toDigits 10 n) := by
    rw [parseInt, hnumber, List.dropWhile_cons_of_neg (by simp [isWhitespace_of_isDigit hfirst])]
    split
    · rename_i hminus
      cases hminus
      cases hfirst
    · rename_i hplus
      cases hplus
      cases hfirst
    · rfl
  have htaken : (Nat.toDigits 10 n).takeWhile Char.isDigit = Nat.toDigits 10 n :=
    List.takeWhile_eq_self_iff.mpr fun _ ↦ isDigit_of_mem
  rw [hparsed, parseDigits, htaken, hvalue, if_neg Nat.toDigits_ne_nil,
    if_neg (Nat.not_le.mpr (hfinite (by decide)))]
  rfl

/-- `number || 0`. -/
def JsNumber.orZero : JsNumber → JsNumber
  | .nan => .finite 0
  | number => number

/-- `Number.isFinite(number) ? number : 0`. -/
def JsNumber.finiteOrZero : JsNumber → JsNumber
  | .finite value => .finite value
  | _ => .finite 0

end Flockctl.Collections
