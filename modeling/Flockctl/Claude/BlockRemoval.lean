import Flockctl.Claude.ManagedBlocks

/-!
# What the removal of blocks leaves

The expression for a managed block knows no lines: it goes from a begin marker to the next end
marker, wherever they stand. Afterwards no begin marker has an end marker behind it. The lines
outside of complete blocks are all left, blank ones and white space at the end apart, when no begin
marker on them has an end marker behind it; otherwise such markers are fewer than before.
-/

namespace Flockctl.Claude

open Collections

/-- What the proofs read off the texts of the markers. -/
theorem marker_facts :
    ('\n' ∉ GIT_EXCLUDE_BEGIN_MARKER ∧ '\n' ∉ GIT_EXCLUDE_END_MARKER) ∧
      ('m' ∈ GIT_EXCLUDE_BEGIN_MARKER ∧ 'm' ∉ GIT_EXCLUDE_END_MARKER) ∧
        (GIT_EXCLUDE_BEGIN_MARKER.getLast? = some '─' ∧
          GIT_EXCLUDE_END_MARKER.head? = some '#') ∧
            isBegin GIT_EXCLUDE_BEGIN_MARKER = true ∧ isEnd GIT_EXCLUDE_END_MARKER = true := by
  decide +kernel

theorem lineFeed_not_mem_begin : '\n' ∉ GIT_EXCLUDE_BEGIN_MARKER := marker_facts.1.1

theorem lineFeed_not_mem_end : '\n' ∉ GIT_EXCLUDE_END_MARKER := marker_facts.1.2

theorem getLast?_begin : GIT_EXCLUDE_BEGIN_MARKER.getLast? = some '─' := marker_facts.2.2.1.1

theorem rule_mem_begin : '─' ∈ GIT_EXCLUDE_BEGIN_MARKER := List.mem_of_getLast? getLast?_begin

theorem begin_ne_nil : GIT_EXCLUDE_BEGIN_MARKER ≠ [] := List.ne_nil_of_mem rule_mem_begin

theorem end_eq_cons : GIT_EXCLUDE_END_MARKER = '#' :: GIT_EXCLUDE_END_MARKER.tail :=
  List.eq_cons_of_mem_head? marker_facts.2.2.1.2

theorem end_ne_nil : GIT_EXCLUDE_END_MARKER ≠ [] := by
  rw [end_eq_cons]
  exact List.cons_ne_nil _ _

theorem isBegin_begin : isBegin GIT_EXCLUDE_BEGIN_MARKER = true := marker_facts.2.2.2.1

theorem isEnd_end : isEnd GIT_EXCLUDE_END_MARKER = true := marker_facts.2.2.2.2

/-- No begin marker has an end marker behind it. -/
def Unpaired (text : List Char) : Prop :=
  ∀ front back, text = front ++ (GIT_EXCLUDE_BEGIN_MARKER ++ back) →
    ¬GIT_EXCLUDE_END_MARKER <:+: back

/-- Every begin marker has an end marker behind it. -/
def Closed (text : List Char) : Prop :=
  ∀ front back, text = front ++ (GIT_EXCLUDE_BEGIN_MARKER ++ back) →
    GIT_EXCLUDE_END_MARKER <:+: back

theorem Unpaired.of_infix {text part : List Char} (h : Unpaired text) (hpart : part <:+: text) :
    Unpaired part := by
  obtain ⟨left, right, rfl⟩ := hpart
  intro front back hsplit hend
  apply h (left ++ front) (back ++ right)
  · rw [hsplit]
    simp only [List.append_assoc]
  · exact hend.trans (List.prefix_append _ _).isInfix

theorem Closed.of_suffix {text part : List Char} (h : Closed text) (hpart : part <:+ text) :
    Closed part := by
  obtain ⟨left, rfl⟩ := hpart
  intro front back hsplit
  apply h (left ++ front) back
  rw [hsplit, List.append_assoc]

theorem unpaired_of_no_begin {text : List Char} (h : ¬GIT_EXCLUDE_BEGIN_MARKER <:+: text) :
    Unpaired text := by
  intro front back hsplit
  exact absurd ⟨front, back, by rw [hsplit, List.append_assoc]⟩ h

/-- A begin marker that no end marker follows makes all later ones unpaired. -/
theorem unpaired_of_cutAt {text before inside : List Char}
    (hcut : cutAt text GIT_EXCLUDE_BEGIN_MARKER = some (before, inside))
    (hend : ¬GIT_EXCLUDE_END_MARKER <:+: inside) : Unpaired text := by
  intro front back hsplit hback
  obtain ⟨htext, hfirst⟩ := cutAt_eq_some_iff.mp hcut
  have hle := hfirst front back hsplit
  have hback' : back <:+ text := by
    rw [hsplit, ← List.append_assoc]
    exact List.suffix_append _ _
  have hinside : inside <:+ text := by
    rw [htext, ← List.append_assoc]
    exact List.suffix_append _ _
  have hlength := congrArg List.length (hsplit.symm.trans htext)
  simp only [List.length_append] at hlength
  have hsuffix : back <:+ inside := List.suffix_of_suffix_length_le hback' hinside (by omega)
  exact hend (hback.trans hsuffix.isInfix)

theorem replaceBlocks_nil (fuel : ℕ) : replaceBlocks fuel [] = [] := by
  cases fuel with
  | zero => rfl
  | succ fuel => rfl

theorem length_behind_lt {content before inside skipped behind : List Char}
    (hbegin : cutAt content GIT_EXCLUDE_BEGIN_MARKER = some (before, inside))
    (hend : cutAt inside GIT_EXCLUDE_END_MARKER = some (skipped, behind)) :
    (behind.dropWhile isLineFeed).length < content.length := by
  have hdrop : (behind.dropWhile isLineFeed).length ≤ behind.length :=
    (List.dropWhile_suffix _).length_le
  have hcontent := congrArg List.length (append_of_cutAt hbegin)
  have hinside := congrArg List.length (append_of_cutAt hend)
  have hmarker := List.length_pos_of_ne_nil begin_ne_nil
  simp only [List.length_append] at hcontent hinside
  omega

theorem replaceBlocks_eq : ∀ (fuel fuel' : ℕ) (content : List Char), content.length ≤ fuel →
    content.length ≤ fuel' → replaceBlocks fuel content = replaceBlocks fuel' content := by
  intro fuel
  induction fuel with
  | zero =>
    intro fuel' content hfuel _
    rw [List.eq_nil_of_length_eq_zero (Nat.le_zero.mp hfuel), replaceBlocks_nil, replaceBlocks_nil]
  | succ fuel ih =>
    intro fuel' content hfuel hfuel'
    cases fuel' with
    | zero =>
      rw [List.eq_nil_of_length_eq_zero (Nat.le_zero.mp hfuel'), replaceBlocks_nil,
        replaceBlocks_nil]
    | succ fuel' =>
      rw [replaceBlocks, replaceBlocks]
      cases hbegin : cutAt content GIT_EXCLUDE_BEGIN_MARKER with
      | none => rfl
      | some parts =>
        obtain ⟨before, inside⟩ := parts
        dsimp only
        cases hend : cutAt inside GIT_EXCLUDE_END_MARKER with
        | none => rfl
        | some parts =>
          obtain ⟨skipped, behind⟩ := parts
          have hlt := length_behind_lt hbegin hend
          dsimp only
          rw [ih fuel' _ (by omega) (by omega)]

theorem withoutBlock_of_cutAt {content before inside skipped behind : List Char}
    (hbegin : cutAt content GIT_EXCLUDE_BEGIN_MARKER = some (before, inside))
    (hend : cutAt inside GIT_EXCLUDE_END_MARKER = some (skipped, behind)) :
    withoutBlock content =
      before.rdropWhile isLineFeed ++ '\n' :: withoutBlock (behind.dropWhile isLineFeed) := by
  have hlt := length_behind_lt hbegin hend
  obtain ⟨n, hn⟩ := Nat.exists_eq_add_of_lt hlt
  rw [withoutBlock, hn, replaceBlocks, hbegin]
  dsimp only
  rw [hend]
  dsimp only
  rw [withoutBlock, replaceBlocks_eq _ _ _ (by omega) (Nat.le_refl _)]

/-- Without a begin marker, or without an end marker behind the first one, nothing is removed. -/
theorem withoutBlock_of_unpaired {content : List Char} (h : Unpaired content) :
    withoutBlock content = content := by
  rw [withoutBlock]
  cases hlength : content.length with
  | zero => rfl
  | succ n =>
    rw [replaceBlocks]
    split
    · rfl
    · rename_i before inside hbegin
      have hnone : cutAt inside GIT_EXCLUDE_END_MARKER = none := by
        rw [cutAt_eq_none_iff]
        exact h before inside (append_of_cutAt hbegin).symm
      rw [hnone]

/-- Either there is nothing to remove, or there is a first match. -/
theorem unpaired_or_cutAt (content : List Char) :
    Unpaired content ∨ ∃ before inside skipped behind,
      cutAt content GIT_EXCLUDE_BEGIN_MARKER = some (before, inside) ∧
        cutAt inside GIT_EXCLUDE_END_MARKER = some (skipped, behind) := by
  cases hbegin : cutAt content GIT_EXCLUDE_BEGIN_MARKER with
  | none => exact Or.inl (unpaired_of_no_begin (cutAt_eq_none_iff.mp hbegin))
  | some parts =>
    obtain ⟨before, inside⟩ := parts
    cases hend : cutAt inside GIT_EXCLUDE_END_MARKER with
    | none => exact Or.inl (unpaired_of_cutAt hbegin (cutAt_eq_none_iff.mp hend))
    | some parts =>
      obtain ⟨skipped, behind⟩ := parts
      exact Or.inr ⟨before, inside, skipped, behind, rfl, hend⟩

theorem not_infix_of_cutAt {content before inside : List Char}
    (hcut : cutAt content GIT_EXCLUDE_BEGIN_MARKER = some (before, inside)) :
    ¬GIT_EXCLUDE_BEGIN_MARKER <:+: before := by
  rintro ⟨front, back, hbefore⟩
  obtain ⟨htext, hfirst⟩ := cutAt_eq_some_iff.mp hcut
  have hsplit : content =
      front ++ (GIT_EXCLUDE_BEGIN_MARKER ++ (back ++ (GIT_EXCLUDE_BEGIN_MARKER ++ inside))) := by
    rw [htext, ← hbefore]
    simp only [List.append_assoc]
  have hle := hfirst _ _ hsplit
  have hlength := congrArg List.length hbefore
  have hmarker := List.length_pos_of_ne_nil begin_ne_nil
  simp only [List.length_append] at hlength
  omega

/-- After the removal no begin marker has an end marker behind it. -/
theorem unpaired_withoutBlock (content : List Char) : Unpaired (withoutBlock content) := by
  induction hlength : content.length using Nat.strong_induction_on generalizing content with
  | _ n ih =>
    rcases unpaired_or_cutAt content with h | ⟨before, inside, skipped, behind, hbegin, hend⟩
    · rw [withoutBlock_of_unpaired h]
      exact h
    · rw [withoutBlock_of_cutAt hbegin hend]
      have hrest := ih _ (hlength ▸ length_behind_lt hbegin hend) (behind.dropWhile isLineFeed) rfl
      intro front back hsplit
      rcases eq_append_of_append_cons_eq lineFeed_not_mem_begin begin_ne_nil hsplit with
        ⟨back', hleft, -⟩ | ⟨front', hright, -⟩
      · have hinside : GIT_EXCLUDE_BEGIN_MARKER <:+: before.rdropWhile isLineFeed :=
          ⟨front, back', by rw [hleft, List.append_assoc]⟩
        have hprefix : before.rdropWhile isLineFeed <+: before := List.rdropWhile_prefix _ _
        exact absurd (hinside.trans hprefix.isInfix) (not_infix_of_cutAt hbegin)
      · exact hrest front' back hright

/-- The lines of a text that hold more than white space. -/
def solidLines (text : List Char) : List (List Char) :=
  (text.splitOn '\n').filter fun line ↦ trim line ≠ []

theorem solidLines_append_cons (left right : List Char) :
    solidLines (left ++ '\n' :: right) = solidLines left ++ solidLines right := by
  rw [solidLines, List.splitOn_append_cons_self, List.filter_append, solidLines, solidLines]

theorem solidLines_rdropWhile (text : List Char) :
    solidLines (text.rdropWhile isLineFeed) = solidLines text := by
  induction text using List.reverseRecOn with
  | nil => rfl
  | append_singleton rest c ih =>
    by_cases hc : isLineFeed c = true
    · rw [List.rdropWhile_concat_pos _ _ _ hc, ih, eq_of_beq hc, solidLines_append_cons]
      exact (List.append_nil _).symm
    · rw [List.rdropWhile_concat_neg _ _ _ hc]

/-- Text without a begin marker stays in front of what is left of the rest. -/
theorem solidLines_withoutBlock_append {left : List Char}
    (hleft : ¬GIT_EXCLUDE_BEGIN_MARKER <:+: left) (right : List Char) :
    solidLines (withoutBlock (left ++ '\n' :: right)) =
      solidLines left ++ solidLines (withoutBlock right) := by
  have hcut : cutAt (left ++ '\n' :: right) GIT_EXCLUDE_BEGIN_MARKER =
      (cutAt right GIT_EXCLUDE_BEGIN_MARKER).map fun parts ↦ (left ++ '\n' :: parts.1, parts.2) :=
    cutAt_append_cons lineFeed_not_mem_begin begin_ne_nil hleft
  rcases unpaired_or_cutAt right with h | ⟨before, inside, skipped, behind, hbegin, hend⟩
  · have hboth : Unpaired (left ++ '\n' :: right) := by
      intro front back hsplit
      rcases eq_append_of_append_cons_eq lineFeed_not_mem_begin begin_ne_nil hsplit with
        ⟨back', hinside, -⟩ | ⟨front', hbehind, -⟩
      · exact absurd ⟨front, back', by rw [hinside, List.append_assoc]⟩ hleft
      · exact h front' back hbehind
    rw [withoutBlock_of_unpaired h, withoutBlock_of_unpaired hboth, solidLines_append_cons]
  · rw [hbegin, Option.map_some] at hcut
    rw [withoutBlock_of_cutAt hbegin hend, withoutBlock_of_cutAt hcut hend,
      solidLines_append_cons, solidLines_append_cons, solidLines_rdropWhile, solidLines_rdropWhile,
      solidLines_append_cons, List.append_assoc]

theorem solidLines_withoutBlock_dropWhile (text : List Char) :
    solidLines (withoutBlock (text.dropWhile isLineFeed)) = solidLines (withoutBlock text) := by
  induction text with
  | nil => rfl
  | cons c rest ih =>
    by_cases hc : isLineFeed c = true
    · have hempty : ¬GIT_EXCLUDE_BEGIN_MARKER <:+: [] := by
        rw [List.infix_nil]
        exact begin_ne_nil
      have hdrop := solidLines_withoutBlock_append hempty rest
      rw [List.dropWhile_cons_of_pos hc, ih, eq_of_beq hc]
      exact hdrop.symm
    · rw [List.dropWhile_cons_of_neg hc]

/-- What is removed from text in which all begin markers are closed ends in this text. -/
theorem solidLines_withoutBlock_closed {left : List Char} (hleft : Closed left)
    (right : List Char) :
    (solidLines (withoutBlock right)).Sublist
      (solidLines (withoutBlock (left ++ '\n' :: right))) := by
  induction hlength : left.length using Nat.strong_induction_on generalizing left with
  | _ n ih =>
    cases hbegin : cutAt left GIT_EXCLUDE_BEGIN_MARKER with
    | none =>
      rw [solidLines_withoutBlock_append (cutAt_eq_none_iff.mp hbegin)]
      exact List.sublist_append_right _ _
    | some parts =>
      obtain ⟨before, inside⟩ := parts
      have hsome := hleft before inside (append_of_cutAt hbegin).symm
      cases hend : cutAt inside GIT_EXCLUDE_END_MARKER with
      | none => exact absurd hsome (cutAt_eq_none_iff.mp hend)
      | some parts =>
        obtain ⟨skipped, behind⟩ := parts
        have hcontent := append_of_cutAt hbegin
        have hinside := append_of_cutAt hend
        have hsuffix : behind <:+ left := by
          rw [← hcontent, ← hinside]
          refine ⟨before ++ GIT_EXCLUDE_BEGIN_MARKER ++ skipped ++ GIT_EXCLUDE_END_MARKER, ?_⟩
          simp only [List.append_assoc]
        have hlt : behind.length < n := by
          have hmarker := List.length_pos_of_ne_nil begin_ne_nil
          rw [← hlength, ← hcontent, ← hinside]
          simp only [List.length_append]
          omega
        have hrest := ih behind.length hlt (hleft.of_suffix hsuffix) rfl
        have hbegin' := cutAt_append_right hbegin ('\n' :: right)
        have hend' := cutAt_append_right hend ('\n' :: right)
        rw [withoutBlock_of_cutAt hbegin' hend', solidLines_append_cons,
          solidLines_withoutBlock_dropWhile]
        exact hrest.trans (List.sublist_append_right _ _)

end Flockctl.Claude
