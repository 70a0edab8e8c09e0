import Mathlib.Data.List.Infix

/-!
# Occurrences of a part in a text

A part occurs in a text at every position where the rest of the text begins with it; two occurrences
may overlap. `indexOf` finds the first occurrence from a position on, and `replaceFirst` puts
another part in the place of the first one.
-/

namespace Flockctl.Collections

variable {α : Type} [DecidableEq α]

/-- The part is in the text at this position. -/
def Occurs (text part : List α) (position : ℕ) : Prop :=
  position ≤ text.length ∧ part <+: text.drop position

instance (text part : List α) (position : ℕ) : Decidable (Occurs text part position) :=
  inferInstanceAs (Decidable (_ ∧ _))

/-- The part is not empty, and in the text at this position only. -/
def OccursOnlyAt (text part : List α) (position : ℕ) : Prop :=
  part ≠ [] ∧ Occurs text part position ∧ ∀ other, Occurs text part other → other = position

/-- `text.indexOf(part, start)`. -/
def indexOf (text part : List α) (start : ℕ) : Option ℕ :=
  let first := min start text.length
  (List.range' first (text.length + 1 - first)).find? fun position ↦
    decide (Occurs text part position)

omit [DecidableEq α] in
theorem Occurs.add_length_le {text part : List α} {position : ℕ}
    (h : Occurs text part position) : position + part.length ≤ text.length := by
  have hlength := h.2.length_le
  rw [List.length_drop] at hlength
  have hposition := h.1
  omega

theorem indexOf_eq_some_iff {text part : List α} {start position : ℕ}
    (hstart : start ≤ text.length) :
    indexOf text part start = some position ↔ start ≤ position ∧ Occurs text part position ∧
      ∀ earlier, start ≤ earlier → earlier < position → ¬ Occurs text part earlier := by
  rw [indexOf, Nat.min_eq_left hstart, List.find?_range'_eq_some]
  simp only [decide_eq_true_eq, List.mem_range'_1, Bool.not_eq_eq_eq_not, Bool.not_true,
    decide_eq_false_iff_not]
  constructor
  · rintro ⟨hoccurs, hrange, hnone⟩
    exact ⟨hrange.1, hoccurs, hnone⟩
  · rintro ⟨hle, hoccurs, hnone⟩
    have hbound := hoccurs.1
    exact ⟨hoccurs, ⟨hle, by omega⟩, hnone⟩

theorem indexOf_eq_none_iff {text part : List α} {start : ℕ} (hstart : start ≤ text.length) :
    indexOf text part start = none ↔
      ∀ position, start ≤ position → ¬ Occurs text part position := by
  rw [indexOf, Nat.min_eq_left hstart, List.find?_eq_none]
  simp only [List.mem_range'_1, decide_eq_true_eq]
  constructor
  · intro hnone position hle hoccurs
    have hbound := hoccurs.1
    exact hnone position ⟨hle, by omega⟩ hoccurs
  · intro hnone position hrange
    exact hnone position hrange.1

/-- The text in front of the first occurrence of a separator and the text behind it. -/
def cutAt (text separator : List α) : Option (List α × List α) :=
  (indexOf text separator 0).map fun position ↦
    (text.take position, text.drop (position + separator.length))

theorem append_of_cutAt {text separator before after : List α}
    (h : cutAt text separator = some (before, after)) : before ++ (separator ++ after) = text := by
  obtain ⟨position, hindex, hpair⟩ := Option.map_eq_some_iff.mp h
  cases hpair
  obtain ⟨-, hoccurs, -⟩ := (indexOf_eq_some_iff (Nat.zero_le _)).mp hindex
  rw [← List.drop_drop, ← List.prefix_append_drop hoccurs.2, List.take_append_drop]

/-- A separator whose first element is not in front of it is found where it stands. -/
theorem cutAt_append {first : α} {separator before after : List α} (h : first ∉ before) :
    cutAt (before ++ (first :: separator ++ after)) (first :: separator) =
      some (before, after) := by
  have hindex : indexOf (before ++ (first :: separator ++ after)) (first :: separator) 0 =
      some before.length := by
    rw [indexOf_eq_some_iff (Nat.zero_le _)]
    refine ⟨Nat.zero_le _, ⟨by simp, by simp⟩, ?_⟩
    intro earlier _ hlt hoccurs
    obtain ⟨rest, hrest⟩ := hoccurs.2
    rw [List.drop_append_of_le_length hlt.le, List.drop_eq_getElem_cons hlt] at hrest
    have hfirst : first = before[earlier] := (List.cons.inj hrest).1
    exact h (hfirst ▸ List.getElem_mem hlt)
  rw [cutAt, hindex]
  simp

theorem cutAt_eq_none_iff {text separator : List α} :
    cutAt text separator = none ↔ ¬separator <:+: text := by
  rw [cutAt, Option.map_eq_none_iff, indexOf_eq_none_iff (Nat.zero_le _)]
  constructor
  · rintro hall ⟨before, after, rfl⟩
    apply hall before.length (Nat.zero_le _)
    constructor
    · simp
    · simp
  · intro hnone position _ hoccurs
    obtain ⟨rest, hrest⟩ := hoccurs.2
    apply hnone
    refine ⟨text.take position, rest, ?_⟩
    rw [List.append_assoc, hrest, List.take_append_drop]

/-- A cut is at the first occurrence. -/
theorem cutAt_eq_some_iff {text separator before after : List α} :
    cutAt text separator = some (before, after) ↔
      text = before ++ (separator ++ after) ∧
        ∀ front back, text = front ++ (separator ++ back) → before.length ≤ front.length := by
  have hoccurs (front back : List α) (h : text = front ++ (separator ++ back)) :
      Occurs text separator front.length := by
    constructor
    · rw [h, List.length_append]
      exact Nat.le_add_right _ _
    · rw [h, List.drop_left]
      exact List.prefix_append _ _
  constructor
  · intro hcut
    refine ⟨(append_of_cutAt hcut).symm, ?_⟩
    intro front back htext
    obtain ⟨position, hindex, hpair⟩ := Option.map_eq_some_iff.mp hcut
    obtain ⟨-, hhere, hfirst⟩ := (indexOf_eq_some_iff (Nat.zero_le _)).mp hindex
    cases hpair
    rw [List.length_take]
    by_contra hlt
    exact hfirst front.length (Nat.zero_le _) (by omega) (hoccurs front back htext)
  · rintro ⟨htext, hfirst⟩
    have hindex : indexOf text separator 0 = some before.length := by
      rw [indexOf_eq_some_iff (Nat.zero_le _)]
      refine ⟨Nat.zero_le _, hoccurs before after htext, ?_⟩
      intro earlier _ hlt hearlier
      obtain ⟨hbound, back, hback⟩ := hearlier
      have hsplit : text = text.take earlier ++ (separator ++ back) := by
        rw [hback, List.take_append_drop]
      have hle := hfirst _ _ hsplit
      rw [List.length_take] at hle
      omega
    rw [cutAt, hindex, Option.map_some, htext, List.take_left, ← List.append_assoc,
      ← List.length_append, List.drop_left]

omit [DecidableEq α] in
/-- A part without the symbol stands on one side of it. -/
theorem eq_append_of_append_cons_eq {symbol : α} {left right front part back : List α}
    (hsymbol : symbol ∉ part) (hpart : part ≠ [])
    (h : left ++ symbol :: right = front ++ (part ++ back)) :
    (∃ back', left = front ++ (part ++ back') ∧ back = back' ++ symbol :: right) ∨
      ∃ front', right = front' ++ (part ++ back) ∧ front = left ++ symbol :: front' := by
  rcases List.append_eq_append_iff.mp h with ⟨more, hfront, hmore⟩ | ⟨rest, hleft, hrest⟩
  · right
    cases more with
    | nil =>
      obtain ⟨first, others, rfl⟩ := List.exists_cons_of_ne_nil hpart
      rw [List.nil_append, List.cons_append] at hmore
      exact absurd ((List.cons.inj hmore).1 ▸ List.mem_cons_self) hsymbol
    | cons first others =>
      rw [List.cons_append] at hmore
      obtain ⟨rfl, hright⟩ := List.cons.inj hmore
      exact ⟨others, hright, hfront⟩
  · left
    rcases List.append_eq_append_iff.mp hrest with ⟨more, hrest', hback⟩ | ⟨more, hpart', hmore⟩
    · exact ⟨more, by rw [hleft, hrest'], hback⟩
    · cases more with
      | nil =>
        rw [List.append_nil] at hpart'
        rw [List.nil_append] at hmore
        exact ⟨[], by rw [hleft, List.append_nil, hpart'], by rw [← hmore, List.nil_append]⟩
      | cons first others =>
        rw [List.cons_append] at hmore
        obtain ⟨rfl, -⟩ := List.cons.inj hmore
        rw [hpart'] at hsymbol
        exact absurd (List.mem_append_right _ List.mem_cons_self) hsymbol

omit [DecidableEq α] in
theorem infix_append_cons_iff {symbol : α} {left right part : List α} (hsymbol : symbol ∉ part)
    (hpart : part ≠ []) :
    part <:+: left ++ symbol :: right ↔ part <:+: left ∨ part <:+: right := by
  constructor
  · rintro ⟨front, back, h⟩
    rw [List.append_assoc] at h
    rcases eq_append_of_append_cons_eq hsymbol hpart h.symm with
      ⟨back', hleft, -⟩ | ⟨front', hright, -⟩
    · exact Or.inl ⟨front, back', by rw [hleft, List.append_assoc]⟩
    · exact Or.inr ⟨front', back, by rw [hright, List.append_assoc]⟩
  · rintro (hleft | hright)
    · exact hleft.trans (List.prefix_append _ _).isInfix
    · exact (hright.trans (List.suffix_cons _ _).isInfix).trans (List.suffix_append _ _).isInfix

/-- What is behind the symbol is cut where it is cut alone, if the part is not in front of it. -/
theorem cutAt_append_cons {symbol : α} {left right separator : List α} (hsymbol : symbol ∉ separator)
    (hseparator : separator ≠ []) (hleft : ¬separator <:+: left) :
    cutAt (left ++ symbol :: right) separator =
      (cutAt right separator).map fun parts ↦ (left ++ symbol :: parts.1, parts.2) := by
  cases hcut : cutAt right separator with
  | none =>
    rw [cutAt_eq_none_iff] at hcut
    rw [Option.map_none, cutAt_eq_none_iff, infix_append_cons_iff hsymbol hseparator, not_or]
    exact ⟨hleft, hcut⟩
  | some parts =>
    obtain ⟨before, after⟩ := parts
    obtain ⟨hright, hfirst⟩ := cutAt_eq_some_iff.mp hcut
    rw [Option.map_some, cutAt_eq_some_iff]
    constructor
    · rw [hright, List.append_assoc, List.cons_append]
    · intro front back h
      rcases eq_append_of_append_cons_eq hsymbol hseparator h with
        ⟨back', hinside, -⟩ | ⟨front', hbehind, rfl⟩
      · exact absurd ⟨front, back', by rw [hinside, List.append_assoc]⟩ hleft
      · have hle := hfirst front' back hbehind
        dsimp only
        rw [List.length_append, List.length_append, List.length_cons, List.length_cons]
        omega

/-- What stands behind a text does not move its first cut. -/
theorem cutAt_append_right {text separator before after : List α}
    (h : cutAt text separator = some (before, after)) (more : List α) :
    cutAt (text ++ more) separator = some (before, after ++ more) := by
  obtain ⟨htext, hfirst⟩ := cutAt_eq_some_iff.mp h
  rw [cutAt_eq_some_iff]
  constructor
  · rw [htext, List.append_assoc, List.append_assoc]
  · intro front back hsplit
    by_contra hlt
    have hlength := congrArg List.length htext
    simp only [List.length_append] at hlength
    have hfront : front ++ separator <+: text ++ more := ⟨back, by rw [List.append_assoc, hsplit]⟩
    have hshort : (front ++ separator).length ≤ text.length := by
      rw [List.length_append]
      omega
    obtain ⟨rest, hrest⟩ :=
      List.prefix_of_prefix_length_le hfront (List.prefix_append text more) hshort
    have hle := hfirst front rest (by rw [← List.append_assoc, hrest])
    omega

/-- The text with another part from a position on, as many elements as the replaced part has. -/
def splice (text part new : List α) (position : ℕ) : List α :=
  text.take position ++ new ++ text.drop (position + part.length)

/-- `text.replace(part, () => new)`. -/
def replaceFirst (text part new : List α) : List α :=
  match indexOf text part 0 with
  | none => text
  | some position => splice text part new position

/-- How often the part is met when each search starts behind the last occurrence. -/
def disjointOccurrences (part : List α) : ℕ → List α → ℕ
  | _, [] => 0
  | skip + 1, _ :: rest => disjointOccurrences part skip rest
  | 0, first :: rest =>
    if part <+: first :: rest then disjointOccurrences part (part.length - 1) rest + 1
    else disjointOccurrences part 0 rest

/-- `text.split(part).length - 1`. -/
def splitCount (text part : List α) : ℤ :=
  if part = [] then (text.length : ℤ) - 1 else disjointOccurrences part 0 text

end Flockctl.Collections
