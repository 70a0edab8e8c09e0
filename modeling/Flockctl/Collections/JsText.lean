import Mathlib.Data.List.DropRight

/-!
# Trimming and splitting a text

`text.trim()` drops the white space at both ends of a text. What is left is a part of the text that
neither starts nor ends with white space, and trimming it once more changes nothing. The pieces of
a split have the separator no more, and pieces without it survive a join.
-/

namespace Flockctl.Collections

/-- What `\s` matches and `trim` drops. -/
def isWhitespace (c : Char) : Bool :=
  ['\t', '\n', '\x0b', '\x0c', '\r', ' ', '\u00a0', '\u1680', '\u2028', '\u2029', '\u202f',
    '\u205f', '\u3000', '\ufeff'].contains c || ('\u2000' ≤ c && c ≤ '\u200a')

/-- No printable character of the ASCII range but the blank is white space. -/
theorem isWhitespace_of_graphic {c : Char} (hlow : '!' ≤ c) (hhigh : c ≤ '~') :
    isWhitespace c = false := by
  rw [isWhitespace, Bool.or_eq_false_iff]
  constructor
  · rw [List.contains_eq_mem, decide_eq_false_iff_not]
    intro hmem
    simp only [List.mem_cons, List.not_mem_nil, or_false] at hmem
    rcases hmem with rfl | rfl | rfl | rfl | rfl | rfl | rfl | rfl | rfl | rfl | rfl | rfl | rfl | rfl
    all_goals
      revert hlow hhigh
      decide
  · rw [Bool.and_eq_false_iff, decide_eq_false_iff_not]
    left
    intro hspace
    exact absurd (Char.le_trans hspace hhigh) (by decide)

/-- `text.trim()`. -/
def trim (text : List Char) : List Char := (text.dropWhile isWhitespace).rdropWhile isWhitespace

@[simp] theorem trim_nil : trim [] = [] := rfl

theorem trim_cons_of_isWhitespace {c : Char} (hc : isWhitespace c = true) (text : List Char) :
    trim (c :: text) = trim text := by
  rw [trim, List.dropWhile_cons_of_pos hc, trim]

theorem trim_concat_of_isWhitespace {c : Char} (hc : isWhitespace c = true) (text : List Char) :
    trim (text ++ [c]) = trim text := by
  rw [trim, List.dropWhile_append]
  split
  · rename_i hblank
    rw [List.isEmpty_iff] at hblank
    rw [trim, hblank, List.dropWhile_cons_of_pos hc, List.dropWhile_nil]
  · rw [List.rdropWhile_concat_pos _ _ _ hc, trim]

/-- Trimming leaves a part of the text. -/
theorem trim_infix (text : List Char) : trim text <:+: text := by
  have hfront : trim text <+: text.dropWhile isWhitespace := List.rdropWhile_prefix _ _
  exact hfront.isInfix.trans (List.dropWhile_suffix _).isInfix

/-- A text that neither starts nor ends with white space. -/
def IsTrimmed (text : List Char) : Prop :=
  (∀ c ∈ text.head?, isWhitespace c = false) ∧ ∀ c ∈ text.getLast?, isWhitespace c = false

instance (text : List Char) : Decidable (IsTrimmed text) :=
  @instDecidableAnd _ _ (Option.decidableForallMem _) (Option.decidableForallMem _)

theorem dropWhile_eq_self_iff_head (text : List Char) :
    text.dropWhile isWhitespace = text ↔ ∀ c ∈ text.head?, isWhitespace c = false := by
  cases text with
  | nil => simp
  | cons c rest => simp [List.dropWhile_eq_self_iff]

theorem rdropWhile_eq_self_iff_last (text : List Char) :
    text.rdropWhile isWhitespace = text ↔ ∀ c ∈ text.getLast?, isWhitespace c = false := by
  rw [List.rdropWhile_eq_self_iff]
  cases text using List.reverseRecOn with
  | nil => simp
  | append_singleton front c => simp

theorem trim_eq_self_iff (text : List Char) : trim text = text ↔ IsTrimmed text := by
  rw [IsTrimmed, ← dropWhile_eq_self_iff_head, ← rdropWhile_eq_self_iff_last]
  constructor
  · intro htrim
    have hdrop : text.dropWhile isWhitespace = text := by
      apply (List.dropWhile_suffix _).eq_of_length_le
      calc text.length = (trim text).length := by rw [htrim]
        _ ≤ (text.dropWhile isWhitespace).length := (List.rdropWhile_prefix _ _).length_le
    rw [trim, hdrop] at htrim
    exact ⟨hdrop, htrim⟩
  · rintro ⟨hhead, hlast⟩
    rw [trim, hhead, hlast]

/-- What trimming leaves is trimmed. -/
theorem isTrimmed_trim (text : List Char) : IsTrimmed (trim text) := by
  constructor
  · obtain ⟨dropped, hdropped⟩ : trim text <+: text.dropWhile isWhitespace :=
      List.rdropWhile_prefix _ _
    intro c hc
    have hhead : c ∈ (text.dropWhile isWhitespace).head? := by
      rw [← hdropped]
      exact List.mem_head?_append_of_mem_head? hc
    exact (dropWhile_eq_self_iff_head _).mp (List.dropWhile_idempotent _ _) c hhead
  · exact (rdropWhile_eq_self_iff_last _).mp (List.rdropWhile_idempotent _ _)

/-- The word, with white space only around it. -/
def Padded (word text : List Char) : Prop :=
  ∃ front back, text = front ++ word ++ back ∧ (∀ c ∈ front, isWhitespace c = true) ∧
    ∀ c ∈ back, isWhitespace c = true

theorem padded_trim (text : List Char) : Padded (trim text) text := by
  refine ⟨text.takeWhile isWhitespace,
    (text.dropWhile isWhitespace).rtakeWhile isWhitespace, ?_, ?_, ?_⟩
  · rw [trim, List.append_assoc, List.rdropWhile_append_rtakeWhile, List.takeWhile_append_dropWhile]
  · intro c hc
    exact List.mem_takeWhile_imp hc
  · intro c hc
    exact List.mem_rtakeWhile_imp hc

/-- A text with anything but white space in it is not blank. -/
theorem trim_ne_nil_of_mem {text : List Char} {c : Char} (hmem : c ∈ text)
    (hc : isWhitespace c = false) : trim text ≠ [] := by
  intro hblank
  obtain ⟨front, back, htext, hfront, hback⟩ := padded_trim text
  rw [hblank, List.append_nil] at htext
  rw [htext, List.mem_append] at hmem
  rcases hmem with hfrontMem | hbackMem
  · exact absurd (hfront c hfrontMem) (by rw [hc]; exact Bool.false_ne_true)
  · exact absurd (hback c hbackMem) (by rw [hc]; exact Bool.false_ne_true)

theorem Padded.append_left {word text front : List Char} (h : Padded word text)
    (hfront : ∀ c ∈ front, isWhitespace c = true) : Padded word (front ++ text) := by
  obtain ⟨inner, back, rfl, hinner, hback⟩ := h
  refine ⟨front ++ inner, back, by simp only [List.append_assoc], ?_, hback⟩
  intro c hc
  rcases List.mem_append.mp hc with hc | hc
  · exact hfront c hc
  · exact hinner c hc

theorem Padded.append_right {word text back : List Char} (h : Padded word text)
    (hback : ∀ c ∈ back, isWhitespace c = true) : Padded word (text ++ back) := by
  obtain ⟨front, inner, rfl, hfront, hinner⟩ := h
  refine ⟨front, inner ++ back, by simp only [List.append_assoc], hfront, ?_⟩
  intro c hc
  rcases List.mem_append.mp hc with hc | hc
  · exact hinner c hc
  · exact hback c hc

/-- Trimming a text gives the trimmed word that it holds between white space. -/
theorem trim_of_padded {word text : List Char} (hword : IsTrimmed word) (h : Padded word text) :
    trim text = word := by
  obtain ⟨front, back, rfl, hfront, hback⟩ := h
  induction back using List.reverseRecOn with
  | nil =>
    rw [List.append_nil]
    induction front with
    | nil =>
      rw [List.nil_append]
      exact (trim_eq_self_iff word).mpr hword
    | cons c rest ih =>
      rw [List.cons_append, trim_cons_of_isWhitespace (hfront c List.mem_cons_self)]
      apply ih
      intro other hother
      exact hfront other (List.mem_cons_of_mem c hother)
  | append_singleton rest c ih =>
    rw [← List.append_assoc, trim_concat_of_isWhitespace (hback c (by simp))]
    apply ih
    intro other hother
    exact hback other (List.mem_append_left _ hother)

section

variable {α : Type} [DecidableEq α] {separator : α}

theorem not_mem_of_mem_splitOn {text piece : List α} (h : piece ∈ text.splitOn separator) :
    separator ∉ piece := by
  induction text generalizing piece with
  | nil =>
    rw [List.splitOn_nil, List.mem_singleton] at h
    rw [h]
    exact List.not_mem_nil
  | cons c rest ih =>
    rw [List.splitOn_cons_eq_if_modifyHead] at h
    split at h
    · rcases List.mem_cons.mp h with rfl | hrest
      · exact List.not_mem_nil
      · exact ih hrest
    · rename_i hc
      obtain ⟨first, others, hsplit⟩ := List.exists_cons_of_ne_nil
        (List.splitOn_ne_nil separator rest)
      rw [hsplit, List.modifyHead_cons] at h
      rcases List.mem_cons.mp h with rfl | hothers
      · intro hmem
        rcases List.mem_cons.mp hmem with rfl | hfirst
        · exact hc (beq_self_eq_true _)
        · exact ih (hsplit ▸ List.mem_cons_self) hfirst
      · exact ih (hsplit ▸ List.mem_cons_of_mem first hothers)

/-- Splitting what was joined splits the pieces. -/
theorem splitOn_intercalate_flatMap {pieces : List (List α)} (h : pieces ≠ []) :
    ([separator].intercalate pieces).splitOn separator =
      pieces.flatMap (·.splitOn separator) := by
  induction pieces with
  | nil => exact absurd rfl h
  | cons piece rest ih =>
    rw [List.flatMap_cons]
    by_cases hrest : rest = []
    · rw [hrest, List.intercalate_singleton, List.flatMap_nil, List.append_nil]
    · rw [List.intercalate_cons_of_ne_nil hrest, List.append_assoc, List.singleton_append,
        List.splitOn_append_cons_self, ih hrest]

/-- The pieces that are not empty come back from what was joined. -/
theorem filter_splitOn_intercalate {pieces : List (List α)}
    (hpieces : ∀ piece ∈ pieces, separator ∉ piece ∧ piece ≠ []) :
    (([separator].intercalate pieces).splitOn separator).filter (· ≠ []) = pieces := by
  by_cases hnone : pieces = []
  · rw [hnone]
    rfl
  · rw [List.splitOn_intercalate separator (fun piece hpiece ↦ (hpieces piece hpiece).1) hnone,
      List.filter_eq_self]
    intro piece hpiece
    exact decide_eq_true (hpieces piece hpiece).2

omit [DecidableEq α] in
theorem intercalate_append {joint : List α} {front back : List (List α)} (hfront : front ≠ [])
    (hback : back ≠ []) :
    joint.intercalate (front ++ back) =
      joint.intercalate front ++ (joint ++ joint.intercalate back) := by
  induction front with
  | nil => exact absurd rfl hfront
  | cons piece rest ih =>
    by_cases hrest : rest = []
    · rw [hrest, List.singleton_append, List.intercalate_cons_of_ne_nil hback,
        List.intercalate_singleton, List.append_assoc]
    · have hboth : rest ++ back ≠ [] := List.append_ne_nil_of_left_ne_nil hrest back
      rw [List.cons_append, List.intercalate_cons_of_ne_nil hboth, ih hrest,
        List.intercalate_cons_of_ne_nil hrest]
      simp only [List.append_assoc]

omit [DecidableEq α] in
theorem mem_intercalate {symbol : α} {joint piece : List α} {pieces : List (List α)}
    (hpiece : piece ∈ pieces) (hsymbol : symbol ∈ piece) : symbol ∈ joint.intercalate pieces := by
  induction pieces with
  | nil => cases hpiece
  | cons first rest ih =>
    by_cases hrest : rest = []
    · rw [hrest] at hpiece ⊢
      rw [List.intercalate_singleton, ← List.mem_singleton.mp hpiece]
      exact hsymbol
    · rw [List.intercalate_cons_of_ne_nil hrest, List.mem_append, List.mem_append]
      rcases List.mem_cons.mp hpiece with rfl | hlater
      · exact Or.inl (Or.inl hsymbol)
      · exact Or.inr (ih hlater)

omit [DecidableEq α] in
theorem not_mem_intercalate {symbol : α} {joint : List α} {pieces : List (List α)}
    (hjoint : symbol ∉ joint) (hpieces : ∀ piece ∈ pieces, symbol ∉ piece) :
    symbol ∉ joint.intercalate pieces := by
  induction pieces with
  | nil => exact List.not_mem_nil
  | cons piece rest ih =>
    have hpiece := hpieces piece List.mem_cons_self
    by_cases hrest : rest = []
    · rw [hrest, List.intercalate_singleton]
      exact hpiece
    · rw [List.intercalate_cons_of_ne_nil hrest, List.mem_append, List.mem_append, not_or, not_or]
      exact ⟨⟨hpiece, hjoint⟩, ih fun other hother ↦ hpieces other (List.mem_cons_of_mem _ hother)⟩

end

end Flockctl.Collections
