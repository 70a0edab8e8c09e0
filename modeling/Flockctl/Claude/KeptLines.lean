import Flockctl.Claude.MarkerCounts

/-!
# The lines that are kept

A begin marker on a line outside of complete blocks is a stray one. As long as no end marker follows
a stray one, blocks are removed by complete blocks, and the other lines keep their order. Where an
end marker follows, a begin marker outside of complete blocks is removed.
-/

namespace Flockctl.Claude

open Collections

/-- The text of some lines, with a line feed behind each. -/
def linesText (lines : List (List Char)) : List Char := lines.flatMap (· ++ ['\n'])

theorem linesText_cons (line : List Char) (rest : List (List Char)) :
    linesText (line :: rest) = line ++ '\n' :: linesText rest := by
  rw [linesText, List.flatMap_cons, List.append_assoc, List.singleton_append, linesText]

theorem linesText_append (front back : List (List Char)) :
    linesText (front ++ back) = linesText front ++ linesText back := List.flatMap_append

theorem linesText_eq_intercalate {lines : List (List Char)} (h : lines ≠ []) :
    linesText lines = ['\n'].intercalate lines ++ ['\n'] := by
  induction lines with
  | nil => exact absurd rfl h
  | cons line rest ih =>
    rw [linesText_cons]
    by_cases hrest : rest = []
    · rw [hrest, List.intercalate_singleton]
      rfl
    · rw [ih hrest, List.intercalate_cons_of_ne_nil hrest]
      simp only [List.append_assoc, List.cons_append, List.nil_append]

theorem linesText_splitOn (text : List Char) : linesText (text.splitOn '\n') = text ++ ['\n'] := by
  rw [linesText_eq_intercalate (List.splitOn_ne_nil _ _), List.intercalate_splitOn]

theorem splitOn_linesText {lines : List (List Char)} (hlines : ∀ line ∈ lines, '\n' ∉ line) :
    (linesText lines).splitOn '\n' = lines ++ [[]] := by
  induction lines with
  | nil => rfl
  | cons line rest ih =>
    rw [linesText_cons, List.splitOn_append_cons_self,
      List.splitOn_eq_singleton (hlines line List.mem_cons_self),
      ih fun other hother ↦ hlines other (List.mem_cons_of_mem _ hother), List.singleton_append,
      List.cons_append]

theorem end_infix_linesText_iff (lines : List (List Char)) :
    GIT_EXCLUDE_END_MARKER <:+: linesText lines ↔
      ∃ line ∈ lines, GIT_EXCLUDE_END_MARKER <:+: line := by
  induction lines with
  | nil =>
    rw [linesText, List.flatMap_nil, List.infix_nil]
    constructor
    · intro h
      exact absurd h end_ne_nil
    · rintro ⟨line, hline, -⟩
      cases hline
  | cons line rest ih =>
    rw [linesText_cons, infix_append_cons_iff lineFeed_not_mem_end end_ne_nil, ih,
      List.exists_mem_cons_iff]

/-- On no line outside of complete blocks does an end marker follow a begin marker, and none comes
on a line behind. -/
def StraysUnpaired (lines : List (List Char)) : Prop :=
  ∀ tail ∈ outsideTails 0 lines, ∀ front back,
    tail.1 = front ++ (GIT_EXCLUDE_BEGIN_MARKER ++ back) →
      ¬GIT_EXCLUDE_END_MARKER <:+: back ∧ ∀ line ∈ tail.2, ¬GIT_EXCLUDE_END_MARKER <:+: line

/-- No line outside of complete blocks has a begin marker. -/
def NoStrays (lines : List (List Char)) : Prop :=
  ∀ line ∈ outside lines, ¬GIT_EXCLUDE_BEGIN_MARKER <:+: line

theorem NoStrays.straysUnpaired {lines : List (List Char)} (h : NoStrays lines) :
    StraysUnpaired lines := by
  intro tail htail front back hline
  have hmem : tail.1 ∈ outside lines := List.mem_map_of_mem htail
  exact absurd ⟨front, back, by rw [hline, List.append_assoc]⟩ (h tail.1 hmem)

theorem straysUnpaired_block_iff {first last : List Char} {inner : List (List Char)}
    (hfirst : isBegin first = true) (hlast : isEnd last = true)
    (hinner : ∀ line ∈ inner, isMarker line = false) (rest : List (List Char)) :
    StraysUnpaired (first :: (inner ++ last :: rest)) ↔ StraysUnpaired rest := by
  rw [StraysUnpaired, outsideTails_block hfirst hlast hinner, StraysUnpaired]

theorem straysUnpaired_line_iff {line : List Char} {rest : List (List Char)}
    (h : blockLength (line :: rest) = none) :
    StraysUnpaired (line :: rest) ↔
      (∀ front back, line = front ++ (GIT_EXCLUDE_BEGIN_MARKER ++ back) →
        ¬GIT_EXCLUDE_END_MARKER <:+: back ++ '\n' :: linesText rest) ∧ StraysUnpaired rest := by
  rw [StraysUnpaired, outsideTails_line h, List.forall_mem_cons]
  refine and_congr ?_ Iff.rfl
  constructor
  · intro hall front back hline
    obtain ⟨hhere, hbehind⟩ := hall front back hline
    rw [infix_append_cons_iff lineFeed_not_mem_end end_ne_nil, end_infix_linesText_iff, not_or]
    refine ⟨hhere, ?_⟩
    rintro ⟨other, hother, hinside⟩
    exact hbehind other hother hinside
  · intro hall front back hline
    have hfree := hall front back hline
    rw [infix_append_cons_iff lineFeed_not_mem_end end_ne_nil, end_infix_linesText_iff,
      not_or] at hfree
    exact ⟨hfree.1, fun other hother hinside ↦ hfree.2 ⟨other, hother, hinside⟩⟩

theorem end_infix_of_isEnd {line : List Char} (h : isEnd line = true) :
    GIT_EXCLUDE_END_MARKER <:+: line := by
  rw [← eq_of_beq h]
  exact trim_infix line

theorem begin_infix_of_isBegin {line : List Char} (h : isBegin line = true) :
    GIT_EXCLUDE_BEGIN_MARKER <:+: line := by
  rw [← eq_of_beq h]
  exact trim_infix line

/-- A line whose text lacks a symbol of the begin marker does not have the marker. -/
theorem not_begin_infix_of_trim {line : List Char} {c : Char} (hmarker : c ∈ GIT_EXCLUDE_BEGIN_MARKER)
    (hc : isWhitespace c = false) (h : c ∉ trim line) : ¬GIT_EXCLUDE_BEGIN_MARKER <:+: line := by
  intro hinside
  have hmem := hinside.subset hmarker
  obtain ⟨front, back, hline, hfront, hback⟩ := padded_trim line
  rw [hline, List.mem_append, List.mem_append] at hmem
  rcases hmem with (hleft | hinside) | hright
  · exact absurd (hfront _ hleft) (by rw [hc]; exact Bool.false_ne_true)
  · exact h hinside
  · exact absurd (hback _ hright) (by rw [hc]; exact Bool.false_ne_true)

theorem not_begin_infix_of_isEnd {line : List Char} (h : isEnd line = true) :
    ¬GIT_EXCLUDE_BEGIN_MARKER <:+: line := by
  apply not_begin_infix_of_trim marker_facts.2.1.1 (by decide)
  rw [eq_of_beq h]
  exact marker_facts.2.1.2

theorem closed_append_of_isEnd {last : List Char} (h : isEnd last = true) (front : List Char) :
    Closed (front ++ '\n' :: last) := by
  intro left right hsplit
  rcases eq_append_of_append_cons_eq lineFeed_not_mem_begin begin_ne_nil hsplit with
    ⟨right', -, rfl⟩ | ⟨left', hlast, -⟩
  · exact ((end_infix_of_isEnd h).trans (List.suffix_cons _ _).isInfix).trans
      (List.suffix_append _ _).isInfix
  · exact absurd ⟨left', right, by rw [hlast, List.append_assoc]⟩ (not_begin_infix_of_isEnd h)

/-- The text of a block, up to the end of its last line, has all its begin markers closed. -/
theorem closed_block {last : List Char} (h : isEnd last = true) (front : List (List Char))
    (hfront : front ≠ []) : Closed (linesText front ++ last) := by
  obtain ⟨others, line, rfl⟩ := List.eq_nil_or_concat' front |>.resolve_left hfront
  have htext : linesText (others ++ [line]) ++ last =
      (linesText others ++ line) ++ '\n' :: last := by
    rw [linesText_append, linesText_cons]
    simp only [linesText, List.flatMap_nil, List.append_assoc, List.cons_append, List.nil_append]
  rw [htext]
  exact closed_append_of_isEnd h _

theorem linesText_block (first last : List Char) (inner rest : List (List Char)) :
    linesText (first :: (inner ++ last :: rest)) =
      (linesText (first :: inner) ++ last) ++ '\n' :: linesText rest := by
  rw [← List.cons_append, linesText_append, linesText_cons last rest, List.append_assoc]

theorem solidLines_linesText {lines : List (List Char)} (hlines : ∀ line ∈ lines, '\n' ∉ line) :
    solidLines (linesText lines) = lines.filter fun line ↦ trim line ≠ [] := by
  induction lines with
  | nil => rfl
  | cons line rest ih =>
    rw [linesText_cons, solidLines_append_cons,
      ih fun other hother ↦ hlines other (List.mem_cons_of_mem _ hother), solidLines,
      List.splitOn_eq_singleton (hlines line List.mem_cons_self), ← List.filter_append,
      List.singleton_append]

theorem Unpaired.concat {text : List Char} (h : Unpaired text) : Unpaired (text ++ ['\n']) := by
  intro front back hsplit hinside
  rcases eq_append_of_append_cons_eq lineFeed_not_mem_begin begin_ne_nil hsplit with
    ⟨back', htext, rfl⟩ | ⟨front', hnil, -⟩
  · rw [infix_append_cons_iff lineFeed_not_mem_end end_ne_nil, List.infix_nil] at hinside
    exact h front back' htext (hinside.resolve_right end_ne_nil)
  · exact begin_ne_nil (List.append_eq_nil_iff.mp (List.append_eq_nil_iff.mp hnil.symm).2).1

/-- A line feed at the end makes no difference. -/
theorem solidLines_withoutBlock_concat (content : List Char) :
    solidLines (withoutBlock (content ++ ['\n'])) = solidLines (withoutBlock content) := by
  induction hlength : content.length using Nat.strong_induction_on generalizing content with
  | _ n ih =>
    rcases unpaired_or_cutAt content with h | ⟨before, inside, skipped, behind, hbegin, hend⟩
    · rw [withoutBlock_of_unpaired h, withoutBlock_of_unpaired h.concat, solidLines_append_cons]
      exact List.append_nil _
    · have hlt : behind.length < n := by
        have hcontent := congrArg List.length (append_of_cutAt hbegin)
        have hinside := congrArg List.length (append_of_cutAt hend)
        have hmarker := List.length_pos_of_ne_nil begin_ne_nil
        simp only [List.length_append] at hcontent hinside
        omega
      rw [withoutBlock_of_cutAt (cutAt_append_right hbegin ['\n'])
          (cutAt_append_right hend ['\n']), withoutBlock_of_cutAt hbegin hend,
        solidLines_append_cons, solidLines_append_cons, solidLines_withoutBlock_dropWhile,
        solidLines_withoutBlock_dropWhile, ih behind.length hlt behind rfl]

/-- The lines outside are left, blank ones apart. -/
theorem outside_sublist_withoutBlock {lines : List (List Char)} (h : StraysUnpaired lines)
    (hlines : ∀ line ∈ lines, '\n' ∉ line) :
    ((outside lines).filter fun line ↦ trim line ≠ []).Sublist
      (solidLines (withoutBlock (linesText lines))) := by
  induction lines using sections_induction with
  | nil => exact List.nil_sublist _
  | block first inner last rest hfirst hlast hinner ih =>
    have hrest := ih ((straysUnpaired_block_iff hfirst hlast hinner rest).mp h) fun line hline ↦
      hlines line (List.mem_cons_of_mem _ (List.mem_append_right _ (List.mem_cons_of_mem _ hline)))
    rw [outside, outsideTails_block hfirst hlast hinner, linesText_block]
    exact hrest.trans
      (solidLines_withoutBlock_closed (closed_block hlast _ (List.cons_ne_nil _ _)) _)
  | line line rest hline ih =>
    obtain ⟨hhere, hbehind⟩ := (straysUnpaired_line_iff hline).mp h
    by_cases hbegin : GIT_EXCLUDE_BEGIN_MARKER <:+: line
    · -- nothing is removed from here on
      have hunpaired : Unpaired (linesText (line :: rest)) := by
        rw [linesText_cons]
        cases hcut : cutAt line GIT_EXCLUDE_BEGIN_MARKER with
        | none => exact absurd hbegin (cutAt_eq_none_iff.mp hcut)
        | some parts =>
          obtain ⟨before, inside⟩ := parts
          exact unpaired_of_cutAt (cutAt_append_right hcut _)
            (hhere before inside (append_of_cutAt hcut).symm)
      rw [withoutBlock_of_unpaired hunpaired, solidLines_linesText hlines]
      exact (outside_sublist _).filter _
    · have hrest := ih hbehind fun other hother ↦ hlines other (List.mem_cons_of_mem _ hother)
      rw [linesText_cons, solidLines_withoutBlock_append hbegin, solidLines,
        List.splitOn_eq_singleton (hlines line List.mem_cons_self), outside,
        outsideTails_line hline, List.map_cons, ← List.singleton_append, List.filter_append]
      exact (List.Sublist.refl _).append hrest

theorem strayCount_linesText_le (lines : List (List Char)) :
    strayCount (linesText lines) ≤ ((outside lines).map beginCount).sum := by
  induction lines using sections_induction with
  | nil => exact Nat.le_refl _
  | block first inner last rest hfirst hlast hinner ih =>
    rw [outside, outsideTails_block hfirst hlast hinner, linesText_block,
      strayCount_closed_append (closed_block hlast _ (List.cons_ne_nil _ _))]
    exact ih
  | line line rest hline ih =>
    rw [linesText_cons, outside, outsideTails_line hline, List.map_cons, List.map_cons,
      List.sum_cons]
    exact (strayCount_append_cons_le line _).trans (Nat.add_le_add_left ih _)

/-- With an end marker behind a stray begin marker there are fewer such markers than stray ones. -/
theorem strayCount_linesText_lt {lines : List (List Char)} (h : ¬StraysUnpaired lines) :
    strayCount (linesText lines) < ((outside lines).map beginCount).sum := by
  induction lines using sections_induction with
  | nil =>
    exfalso
    apply h
    rintro tail ⟨⟩
  | block first inner last rest hfirst hlast hinner ih =>
    rw [straysUnpaired_block_iff hfirst hlast hinner] at h
    rw [outside, outsideTails_block hfirst hlast hinner, linesText_block,
      strayCount_closed_append (closed_block hlast _ (List.cons_ne_nil _ _))]
    exact ih h
  | line line rest hline ih =>
    rw [straysUnpaired_line_iff hline, not_and_or] at h
    rw [linesText_cons, outside, outsideTails_line hline, List.map_cons, List.map_cons,
      List.sum_cons]
    rcases h with hhere | hbehind
    · push Not at hhere
      obtain ⟨front, back, hsplit, hend⟩ := hhere
      exact (strayCount_append_cons_lt hsplit hend).trans_le
        (Nat.add_le_add_left (strayCount_linesText_le rest) _)
    · exact (strayCount_append_cons_le line _).trans_lt (Nat.add_lt_add_left (ih hbehind) _)

/-- A line feed at the end makes no difference. -/
theorem strayCount_concat (text : List Char) : strayCount (text ++ ['\n']) = strayCount text := by
  induction text with
  | nil => rw [List.nil_append, strayCount_lineFeed]
  | cons c rest ih =>
    have hhead := begin_prefix_append_cons_iff (c :: rest) []
    rw [List.cons_append] at hhead
    rw [List.cons_append, strayCount, strayCount, ih]
    by_cases hbegin : GIT_EXCLUDE_BEGIN_MARKER <+: c :: rest
    · have hdrop : (c :: (rest ++ ['\n'])).drop GIT_EXCLUDE_BEGIN_MARKER.length =
          (c :: rest).drop GIT_EXCLUDE_BEGIN_MARKER.length ++ ['\n'] := by
        rw [← List.cons_append, List.drop_append_of_le_length hbegin.length_le]
      have hinside (part : List Char) :
          GIT_EXCLUDE_END_MARKER <:+: part ++ ['\n'] ↔ GIT_EXCLUDE_END_MARKER <:+: part := by
        rw [infix_append_cons_iff lineFeed_not_mem_end end_ne_nil, List.infix_nil,
          or_iff_left end_ne_nil]
      rw [hdrop]
      simp only [hhead, hinside]
    · rw [if_neg (fun h ↦ hbegin (hhead.mp h.1)), if_neg (fun h ↦ hbegin h.1)]

end Flockctl.Claude
