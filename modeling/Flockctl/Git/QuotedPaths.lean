import Flockctl.Encoding.Utf8

/-!
# How git writes a path

Git writes a path as it is where it holds printable characters of the ASCII range only. A path with
a quote, a backslash, a control character or any other character is written between quotes, with
escapes for what does not stand for itself. What is written has printable characters only.
-/

namespace Flockctl.Git

/-- The characters that git does not write as they are. -/
def mustQuote (c : Char) : Bool :=
  c.toNat < 0x20 || c == '"' || c == '\\' || 0x7f ≤ c.toNat

/-- The letter behind the backslash, where there is one. -/
def escapeLetter (c : Char) : Option Char :=
  if c = '\x07' then some 'a'
  else if c = '\x08' then some 'b'
  else if c = '\t' then some 't'
  else if c = '\n' then some 'n'
  else if c = '\x0b' then some 'v'
  else if c = '\x0c' then some 'f'
  else if c = '\r' then some 'r'
  else if c = '"' then some '"'
  else if c = '\\' then some '\\'
  else none

/-- A digit below ten. -/
def octalDigit (n : ℕ) : Char := Nat.digitChar (n % 8)

/-- A byte as a backslash and three octal digits. -/
def octal (byte : UInt8) : List Char :=
  ['\\', octalDigit (byte.toNat / 64), octalDigit (byte.toNat / 8), octalDigit byte.toNat]

def quoteChar (c : Char) : List Char :=
  if mustQuote c = true then
    match escapeLetter c with
    | some letter => ['\\', letter]
    | none => (String.utf8EncodeChar c).flatMap octal
  else [c]

/-- A path, with the letter of its side in front, as the headers of a diff and the rows of a status
have it. -/
def quotePath (path : List Char) : List Char :=
  if path.any mustQuote = true then '"' :: (path.flatMap quoteChar ++ ['"']) else path

/-- The path is written as it is. -/
def IsPlain (path : List Char) : Prop := ∀ c ∈ path, mustQuote c = false

instance (path : List Char) : Decidable (IsPlain path) :=
  List.decidableBAll _ path

theorem quotePath_of_isPlain {path : List Char} (h : IsPlain path) : quotePath path = path := by
  rw [quotePath, if_neg]
  rw [Bool.not_eq_true, List.any_eq_false]
  intro c hc
  rw [h c hc]
  exact Bool.false_ne_true

theorem quotePath_of_not_isPlain {path : List Char} (h : ¬IsPlain path) :
    quotePath path = '"' :: (path.flatMap quoteChar ++ ['"']) := by
  rw [quotePath, if_pos]
  rw [IsPlain] at h
  push Not at h
  obtain ⟨c, hc, hmust⟩ := h
  rw [List.any_eq_true]
  exact ⟨c, hc, by simpa using hmust⟩

/-- A printable character of the ASCII range. -/
def IsPrintable (c : Char) : Prop := 0x20 ≤ c.toNat ∧ c.toNat < 0x7f

instance (c : Char) : Decidable (IsPrintable c) := inferInstanceAs (Decidable (_ ∧ _))

theorem isPrintable_of_mustQuote {c : Char} (h : mustQuote c = false) : IsPrintable c := by
  simp only [mustQuote, Bool.or_eq_false_iff, decide_eq_false_iff_not, Nat.not_lt, Nat.not_le] at h
  exact ⟨h.1.1.1, h.2⟩

theorem isPrintable_octalDigit (n : ℕ) : IsPrintable (octalDigit n) := by
  have hdigits : ∀ m < 8, IsPrintable (Nat.digitChar m) := by decide
  exact hdigits _ (Nat.mod_lt n (by decide))

theorem isPrintable_escapeLetter {c letter : Char} (h : escapeLetter c = some letter) :
    IsPrintable letter := by
  unfold escapeLetter at h
  split_ifs at h <;> cases h <;> decide

theorem isPrintable_quoteChar (c : Char) : ∀ d ∈ quoteChar c, IsPrintable d := by
  intro d hd
  rw [quoteChar] at hd
  split at hd
  · split at hd
    next letter hletter =>
      rcases List.mem_cons.mp hd with rfl | hd
      · decide
      · rw [List.mem_singleton.mp hd]
        exact isPrintable_escapeLetter hletter
    · obtain ⟨byte, -, hbyte⟩ := List.mem_flatMap.mp hd
      simp only [octal, List.mem_cons, List.not_mem_nil, or_false] at hbyte
      rcases hbyte with rfl | rfl | rfl | rfl
      · decide
      · exact isPrintable_octalDigit _
      · exact isPrintable_octalDigit _
      · exact isPrintable_octalDigit _
  next hplain =>
    rw [List.mem_singleton.mp hd]
    exact isPrintable_of_mustQuote (Bool.not_eq_true _ ▸ hplain)

/-- What git writes for a path is printable. -/
theorem isPrintable_quotePath (path : List Char) : ∀ c ∈ quotePath path, IsPrintable c := by
  intro c hc
  by_cases hplain : IsPlain path
  · rw [quotePath_of_isPlain hplain] at hc
    exact isPrintable_of_mustQuote (hplain c hc)
  · rw [quotePath_of_not_isPlain hplain] at hc
    simp only [List.mem_cons, List.mem_append, List.mem_flatMap, List.not_mem_nil, or_false] at hc
    rcases hc with rfl | ⟨d, -, hd⟩ | rfl
    · decide
    · exact isPrintable_quoteChar d c hd
    · decide

theorem length_quoteChar_pos (c : Char) : 1 ≤ (quoteChar c).length := by
  rw [quoteChar]
  split
  · split
    · simp
    · have hbytes : 0 < (String.utf8EncodeChar c).length := by
        rw [String.length_utf8EncodeChar]
        exact c.utf8Size_pos
      obtain ⟨byte, rest, hsplit⟩ := List.exists_cons_of_length_pos hbytes
      rw [hsplit, List.flatMap_cons, List.length_append]
      have hoctal : (octal byte).length = 4 := rfl
      omega
  · simp

/-- A path between quotes has become longer. -/
theorem length_quotePath {path : List Char} (h : ¬IsPlain path) :
    path.length + 2 ≤ (quotePath path).length := by
  have hbody : path.length ≤ (path.flatMap quoteChar).length := by
    clear h
    induction path with
    | nil => exact Nat.zero_le _
    | cons c rest ih =>
      have hc := length_quoteChar_pos c
      rw [List.flatMap_cons, List.length_append, List.length_cons]
      omega
  rw [quotePath_of_not_isPlain h]
  simp only [List.length_cons, List.length_append, List.length_nil]
  omega

end Flockctl.Git
