import Flockctl.Claude.BlockRemoval
import Mathlib.Algebra.GroupWithZero.Nat
import Mathlib.Algebra.Order.BigOperators.Group.List
import Mathlib.Algebra.Order.Group.Nat

/-!
# Counting begin markers

The begin markers that no end marker follows are as many after the removal of blocks as before, and
no others are left. Each of them is outside of complete blocks. So a begin marker outside that an end
marker follows is one too many: the lines outside have more begin markers than what is left.
-/

namespace Flockctl.Claude

open Collections

/-- The number of begin markers. -/
def beginCount : List Char → ℕ
  | [] => 0
  | c :: rest => (if GIT_EXCLUDE_BEGIN_MARKER <+: c :: rest then 1 else 0) + beginCount rest

/-- The number of begin markers that no end marker follows. -/
def strayCount : List Char → ℕ
  | [] => 0
  | c :: rest =>
    (if GIT_EXCLUDE_BEGIN_MARKER <+: c :: rest ∧
        ¬GIT_EXCLUDE_END_MARKER <:+: (c :: rest).drop GIT_EXCLUDE_BEGIN_MARKER.length then 1 else 0) +
      strayCount rest

theorem not_begin_prefix_lineFeed (rest : List Char) :
    ¬GIT_EXCLUDE_BEGIN_MARKER <+: '\n' :: rest := by
  intro h
  obtain ⟨c, marker, hmarker⟩ := List.exists_cons_of_ne_nil begin_ne_nil
  rw [hmarker, List.cons_prefix_cons] at h
  apply lineFeed_not_mem_begin
  rw [hmarker, h.1]
  exact List.mem_cons_self

/-- What stands behind a line feed does not matter for a marker in front of it. -/
theorem begin_prefix_append_cons_iff (left right : List Char) :
    GIT_EXCLUDE_BEGIN_MARKER <+: left ++ '\n' :: right ↔ GIT_EXCLUDE_BEGIN_MARKER <+: left := by
  constructor
  · rintro ⟨back, h⟩
    rcases eq_append_of_append_cons_eq lineFeed_not_mem_begin begin_ne_nil
      ((List.nil_append _).trans h).symm with ⟨back', hleft, -⟩ | ⟨front', -, hfront⟩
    · exact ⟨back', hleft.symm⟩
    · exact absurd hfront.symm (List.append_ne_nil_of_right_ne_nil _ (List.cons_ne_nil _ _))
  · intro h
    exact h.trans (List.prefix_append _ _)

theorem beginCount_lineFeed (rest : List Char) : beginCount ('\n' :: rest) = beginCount rest := by
  rw [beginCount, if_neg (not_begin_prefix_lineFeed rest), Nat.zero_add]

theorem strayCount_lineFeed (rest : List Char) : strayCount ('\n' :: rest) = strayCount rest := by
  rw [strayCount, if_neg (fun h ↦ not_begin_prefix_lineFeed rest h.1), Nat.zero_add]

theorem beginCount_append_cons (left right : List Char) :
    beginCount (left ++ '\n' :: right) = beginCount left + beginCount right := by
  induction left with
  | nil => rw [List.nil_append, beginCount_lineFeed, beginCount, Nat.zero_add]
  | cons c rest ih =>
    have hhead := begin_prefix_append_cons_iff (c :: rest) right
    rw [List.cons_append] at hhead
    simp only [List.cons_append, beginCount, hhead, ih]
    omega

theorem beginCount_eq_zero_iff (text : List Char) :
    beginCount text = 0 ↔ ¬GIT_EXCLUDE_BEGIN_MARKER <:+: text := by
  induction text with
  | nil =>
    rw [List.infix_nil]
    exact ⟨fun _ ↦ begin_ne_nil, fun _ ↦ rfl⟩
  | cons c rest ih =>
    rw [beginCount, List.infix_cons_iff, not_or, ← ih]
    split
    · rename_i h
      constructor
      · intro hzero
        omega
      · rintro ⟨hnot, -⟩
        exact absurd h hnot
    · rename_i h
      rw [Nat.zero_add, and_iff_right h]

theorem beginCount_intercalate (lines : List (List Char)) :
    beginCount (['\n'].intercalate lines) = (lines.map beginCount).sum := by
  induction lines with
  | nil => rfl
  | cons line rest ih =>
    by_cases hrest : rest = []
    · rw [hrest]
      simp only [List.intercalate_singleton, List.map_cons, List.map_nil, List.sum_cons,
        List.sum_nil, Nat.add_zero]
    · rw [List.intercalate_cons_of_ne_nil hrest, List.append_assoc, List.singleton_append,
        beginCount_append_cons, ih, List.map_cons, List.sum_cons]

/-- The markers of a text are those of its lines. -/
theorem sum_beginCount_splitOn (text : List Char) :
    ((text.splitOn '\n').map beginCount).sum = beginCount text := by
  rw [← beginCount_intercalate, List.intercalate_splitOn]

theorem sum_beginCount_le {lines others : List (List Char)} (h : lines.Sublist others) :
    (lines.map beginCount).sum ≤ (others.map beginCount).sum :=
  (h.map beginCount).sum_le_sum fun _ _ ↦ Nat.zero_le _

theorem sum_beginCount_filter {lines : List (List Char)} {keep : List Char → Bool}
    (h : ∀ line ∈ lines, keep line = false → beginCount line = 0) :
    ((lines.filter keep).map beginCount).sum = (lines.map beginCount).sum := by
  induction lines with
  | nil => rfl
  | cons line rest ih =>
    have hrest := ih fun other hother ↦ h other (List.mem_cons_of_mem _ hother)
    cases hkeep : keep line with
    | true =>
      rw [List.filter_cons_of_pos hkeep, List.map_cons, List.map_cons, List.sum_cons,
        List.sum_cons, hrest]
    | false =>
      rw [List.filter_cons_of_neg (by rw [hkeep]; exact Bool.false_ne_true), hrest, List.map_cons,
        List.sum_cons, h line List.mem_cons_self hkeep, Nat.zero_add]

theorem last_begin : ∀ c ∈ GIT_EXCLUDE_BEGIN_MARKER.getLast?, isWhitespace c = false := by
  intro c hc
  rw [getLast?_begin] at hc
  cases hc
  rfl

/-- White space at the end does not complete a marker. -/
theorem begin_prefix_append_iff {text blank : List Char}
    (hblank : ∀ c ∈ blank, isWhitespace c = true) :
    GIT_EXCLUDE_BEGIN_MARKER <+: text ++ blank ↔ GIT_EXCLUDE_BEGIN_MARKER <+: text := by
  constructor
  · intro h
    by_cases hlength : GIT_EXCLUDE_BEGIN_MARKER.length ≤ text.length
    · exact List.prefix_of_prefix_length_le h (List.prefix_append _ _) hlength
    · obtain ⟨rest, hrest⟩ :=
        List.prefix_of_prefix_length_le (List.prefix_append text blank) h (by omega)
      have hne : rest ≠ [] := by
        rintro rfl
        rw [List.append_nil] at hrest
        rw [hrest] at hlength
        exact hlength (Nat.le_refl _)
      rw [← hrest, List.prefix_append_right_inj] at h
      have hlast : rest.getLast hne ∈ GIT_EXCLUDE_BEGIN_MARKER.getLast? := by
        rw [← hrest, List.getLast?_append_of_ne_nil _ hne, List.getLast?_eq_some_getLast hne]
        exact rfl
      have hspace := hblank _ (h.subset (List.getLast_mem hne))
      rw [last_begin _ hlast] at hspace
      cases hspace
  · intro h
    exact h.trans (List.prefix_append _ _)

theorem beginCount_append_blank (text : List Char) {blank : List Char}
    (hblank : ∀ c ∈ blank, isWhitespace c = true) :
    beginCount (text ++ blank) = beginCount text := by
  induction text with
  | nil =>
    rw [List.nil_append, beginCount, beginCount_eq_zero_iff]
    intro hinside
    exact absurd (hblank _ (hinside.subset rule_mem_begin)) (by decide)
  | cons c rest ih =>
    have hhead : GIT_EXCLUDE_BEGIN_MARKER <+: c :: rest ++ blank ↔
        GIT_EXCLUDE_BEGIN_MARKER <+: c :: rest := begin_prefix_append_iff hblank
    rw [List.cons_append] at hhead
    simp only [List.cons_append, beginCount, hhead, ih]

theorem append_of_trimEnd (text : List Char) :
    ∃ blank, text = trimEnd text ++ blank ∧ ∀ c ∈ blank, isWhitespace c = true := by
  refine ⟨text.rtakeWhile isWhitespace, ?_, fun c hc ↦ List.mem_rtakeWhile_imp hc⟩
  rw [trimEnd, List.rdropWhile_append_rtakeWhile]

theorem beginCount_trimEnd (text : List Char) : beginCount (trimEnd text) = beginCount text := by
  obtain ⟨blank, htext, hblank⟩ := append_of_trimEnd text
  conv_rhs => rw [htext]
  exact (beginCount_append_blank _ hblank).symm

theorem strayCount_le_of_suffix {text part : List Char} (h : part <:+ text) :
    strayCount part ≤ strayCount text := by
  obtain ⟨front, rfl⟩ := h
  induction front with
  | nil => exact Nat.le_refl _
  | cons c rest ih =>
    rw [List.cons_append, strayCount]
    omega

/-- What is behind a begin marker that starts a text. -/
theorem eq_append_of_begin_front {text : List Char} (h : GIT_EXCLUDE_BEGIN_MARKER <+: text) :
    text = [] ++ (GIT_EXCLUDE_BEGIN_MARKER ++ text.drop GIT_EXCLUDE_BEGIN_MARKER.length) := by
  rw [List.nil_append, ← List.prefix_append_drop h]

theorem beginCount_le_strayCount {text : List Char} (h : Unpaired text) :
    beginCount text ≤ strayCount text := by
  induction text with
  | nil => exact Nat.le_refl _
  | cons c rest ih =>
    have hrest := ih (h.of_infix (List.suffix_cons c rest).isInfix)
    rw [beginCount, strayCount]
    by_cases hbegin : GIT_EXCLUDE_BEGIN_MARKER <+: c :: rest
    · have hfree := h _ _ (eq_append_of_begin_front hbegin)
      rw [if_pos hbegin, if_pos ⟨hbegin, hfree⟩]
      omega
    · rw [if_neg hbegin]
      omega

/-- Only markers that no end marker follows are left. -/
theorem beginCount_withoutBlock_le (content : List Char) :
    beginCount (withoutBlock content) ≤ strayCount content := by
  induction hlength : content.length using Nat.strong_induction_on generalizing content with
  | _ n ih =>
    rcases unpaired_or_cutAt content with h | ⟨before, inside, skipped, behind, hbegin, hend⟩
    · rw [withoutBlock_of_unpaired h]
      exact beginCount_le_strayCount h
    · have hrest := ih _ (hlength ▸ length_behind_lt hbegin hend) (behind.dropWhile isLineFeed) rfl
      have hbefore : beginCount (before.rdropWhile isLineFeed) = 0 := by
        rw [beginCount_eq_zero_iff]
        have hprefix : before.rdropWhile isLineFeed <+: before := List.rdropWhile_prefix _ _
        exact fun hinside ↦ not_infix_of_cutAt hbegin (hinside.trans hprefix.isInfix)
      have hsuffix : behind.dropWhile isLineFeed <:+ content := by
        apply (List.dropWhile_suffix _).trans
        rw [← append_of_cutAt hbegin, ← append_of_cutAt hend]
        refine ⟨before ++ GIT_EXCLUDE_BEGIN_MARKER ++ skipped ++ GIT_EXCLUDE_END_MARKER, ?_⟩
        simp only [List.append_assoc]
      rw [withoutBlock_of_cutAt hbegin hend, beginCount_append_cons, hbefore, Nat.zero_add]
      exact hrest.trans (strayCount_le_of_suffix hsuffix)

theorem strayCount_closed_append {left : List Char} (h : Closed left) (right : List Char) :
    strayCount (left ++ '\n' :: right) = strayCount right := by
  induction left with
  | nil => rw [List.nil_append, strayCount_lineFeed]
  | cons c rest ih =>
    have hhead := begin_prefix_append_cons_iff (c :: rest) right
    rw [List.cons_append] at hhead
    rw [List.cons_append, strayCount, ih (h.of_suffix (List.suffix_cons c rest)), if_neg,
      Nat.zero_add]
    rintro ⟨hbegin, hfree⟩
    have hleft := hhead.mp hbegin
    apply hfree
    rw [← List.cons_append, List.drop_append_of_le_length hleft.length_le]
    exact (h _ _ (eq_append_of_begin_front hleft)).trans (List.prefix_append _ _).isInfix

/-- A line has as many markers that no end marker follows as it has begin markers at most, and fewer
when an end marker follows one of these. -/
theorem strayCount_append_cons_le (line rest : List Char) :
    strayCount (line ++ '\n' :: rest) ≤ beginCount line + strayCount rest := by
  induction line with
  | nil =>
    rw [List.nil_append, strayCount_lineFeed]
    omega
  | cons c line ih =>
    have hhead := begin_prefix_append_cons_iff (c :: line) rest
    rw [List.cons_append] at hhead
    rw [List.cons_append, strayCount, beginCount]
    by_cases hbegin : GIT_EXCLUDE_BEGIN_MARKER <+: c :: line
    · rw [if_pos hbegin]
      split
      · omega
      · omega
    · rw [if_neg hbegin, if_neg (fun h ↦ hbegin (hhead.mp h.1))]
      omega

theorem strayCount_append_cons_lt {line rest front back : List Char}
    (hline : line = front ++ (GIT_EXCLUDE_BEGIN_MARKER ++ back))
    (hend : GIT_EXCLUDE_END_MARKER <:+: back ++ '\n' :: rest) :
    strayCount (line ++ '\n' :: rest) < beginCount line + strayCount rest := by
  induction front generalizing line with
  | nil =>
    rw [List.nil_append] at hline
    obtain ⟨c, tail, hcons⟩ : ∃ c tail, line = c :: tail :=
      List.exists_cons_of_ne_nil fun h ↦ begin_ne_nil (List.append_eq_nil_iff.mp (hline ▸ h)).1
    have hbegin : GIT_EXCLUDE_BEGIN_MARKER <+: c :: tail := by
      rw [← hcons, hline]
      exact List.prefix_append _ _
    have hle := strayCount_append_cons_le tail rest
    have hdrop : (c :: tail ++ '\n' :: rest).drop GIT_EXCLUDE_BEGIN_MARKER.length =
        back ++ '\n' :: rest := by
      rw [← hcons, hline, List.append_assoc, List.drop_left]
    rw [hcons, List.cons_append, strayCount, beginCount, if_pos hbegin, ← List.cons_append, hdrop,
      if_neg (fun h ↦ h.2 hend)]
    omega
  | cons c front ih =>
    rw [List.cons_append] at hline
    have hrest := ih rfl
    have hhead := begin_prefix_append_cons_iff line rest
    rw [hline] at hhead ⊢
    rw [List.cons_append] at hhead
    rw [List.cons_append, strayCount, beginCount]
    by_cases hbegin : GIT_EXCLUDE_BEGIN_MARKER <+: c :: (front ++ (GIT_EXCLUDE_BEGIN_MARKER ++ back))
    · rw [if_pos hbegin]
      split
      · omega
      · omega
    · rw [if_neg hbegin, if_neg (fun h ↦ hbegin (hhead.mp h.1))]
      omega

end Flockctl.Claude
