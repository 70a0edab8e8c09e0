import Flockctl.Claude.KeptLines

/-!
# The managed block is a local edit

After a call the exclude file has one complete block, with the patterns of the call; the lines
outside of the old blocks that are no managed patterns are there in their order, in this file and in
`.gitignore`; and the same call changes nothing more. White space at the end of a line is not part of
its text, as in any exclude file, and blank lines only separate others. All this holds of every
sequence of calls unless a begin marker stands outside of a complete block, or a managed pattern has
white space in front of it: a stray begin marker is paired with the end marker of the block that the
first call appends, and the next call removes all the lines between the two.
-/

namespace Flockctl.Claude

open Collections

def linesOf (content : List Char) : List (List Char) := content.splitOn '\n'

/-- The line is a managed pattern. -/
def isPattern (line : List Char) : Bool := ALL_MANAGED_PATTERNS.contains (trimEnd line)

/-- The lines that an edit is to keep. -/
def needed (content : List Char) : List (List Char) :=
  (outside (linesOf content)).filter fun line ↦ !isPattern line && trim line ≠ []

/-- The needed lines of a file are lines outside of complete blocks of another one, in their order.
The last of them may have lost white space at its end. -/
def Keeps (old new : List Char) : Prop :=
  (needed old).dropLast.Sublist (outside (linesOf new)) ∧
    ((needed old).map trimEnd).Sublist ((outside (linesOf new)).map trimEnd)

/-- What a call is to do. -/
structure IsLocalEdit (before after : IgnoreFiles) (opts : GitExcludeOptions) : Prop where
  hasBlock : ∃ exclude, after.exclude = some exclude ∧
    blocks 0 (linesOf exclude) = [buildPatternList opts]
  keepsExclude : Keeps (before.exclude.getD []) (after.exclude.getD [])
  keepsGitignore : Keeps (before.gitignore.getD []) (after.gitignore.getD [])
  repeats : ensureGitExclude after opts = after

def runCalls (files : IgnoreFiles) (calls : List GitExcludeOptions) : IgnoreFiles :=
  calls.foldl ensureGitExclude files

/-- Every call of every sequence is a local edit. -/
def EditsLocally (files : IgnoreFiles) : Prop :=
  ∀ calls opts, IsLocalEdit (runCalls files calls) (runCalls files (calls ++ [opts])) opts

/-- No line outside of complete blocks is a managed pattern with white space in front of it. -/
def NoIndentedPattern (content : List Char) : Prop :=
  ∀ line ∈ outside (linesOf content), isManaged line = true → isPattern line = true

/-! ## Trimming the end -/

theorem trimEnd_trimEnd (text : List Char) : trimEnd (trimEnd text) = trimEnd text :=
  List.rdropWhile_idempotent _ _

theorem trim_trimEnd (line : List Char) : trim (trimEnd line) = trim line := by
  obtain ⟨blank, hline, hblank⟩ := append_of_trimEnd line
  have hpadded := (padded_trim (trimEnd line)).append_right hblank
  rw [← hline] at hpadded
  exact (trim_of_padded (isTrimmed_trim _) hpadded).symm

theorem trimEnd_eq_nil_iff (line : List Char) : trimEnd line = [] ↔ trim line = [] := by
  constructor
  · intro h
    rw [← trim_trimEnd, h, trim_nil]
  · intro h
    obtain ⟨front, back, hline, hfront, hback⟩ := padded_trim line
    rw [h, List.append_nil] at hline
    rw [trimEnd, List.rdropWhile_eq_nil_iff]
    intro c hc
    rw [hline, List.mem_append] at hc
    exact hc.elim (hfront c) (hback c)

theorem trimEnd_append_blank (text : List Char) {blank : List Char}
    (hblank : ∀ c ∈ blank, isWhitespace c = true) : trimEnd (text ++ blank) = trimEnd text := by
  induction blank using List.reverseRecOn with
  | nil => rw [List.append_nil]
  | append_singleton rest c ih =>
    have hc : isWhitespace c = true := hblank c (by simp)
    rw [← List.append_assoc, trimEnd, List.rdropWhile_concat_pos _ _ _ hc]
    exact ih fun other hother ↦ hblank other (List.mem_append_left _ hother)

theorem trimEnd_append_trimmed (text : List Char) {word : List Char} (hword : word ≠ [])
    (htrimmed : trimEnd word = word) : trimEnd (text ++ word) = text ++ word := by
  rw [trimEnd, List.rdropWhile_eq_self_iff] at htrimmed ⊢
  intro hne
  rw [List.getLast_append_of_ne_nil _ hword]
  exact htrimmed hword

/-- A blank last line is dropped with the line feed in front of it. -/
theorem trimEnd_append_blank_line (left : List Char) {right : List Char} (h : trimEnd right = []) :
    trimEnd (left ++ '\n' :: right) = trimEnd left := by
  apply trimEnd_append_blank
  intro c hc
  rcases List.mem_cons.mp hc with rfl | hright
  · decide
  · exact List.rdropWhile_eq_nil_iff.mp h c hright

theorem trimEnd_append_line (left : List Char) {right : List Char} (h : trimEnd right ≠ []) :
    trimEnd (left ++ '\n' :: right) = left ++ '\n' :: trimEnd right := by
  obtain ⟨blank, hright, hblank⟩ := append_of_trimEnd right
  calc
    trimEnd (left ++ '\n' :: right) = trimEnd ((left ++ ['\n']) ++ trimEnd right ++ blank) := by
      conv_lhs => rw [hright]
      simp only [List.append_assoc, List.cons_append, List.nil_append]
    _ = trimEnd ((left ++ ['\n']) ++ trimEnd right) := trimEnd_append_blank _ hblank
    _ = (left ++ ['\n']) ++ trimEnd right := trimEnd_append_trimmed _ h (trimEnd_trimEnd right)
    _ = left ++ '\n' :: trimEnd right := by rw [List.append_assoc, List.singleton_append]

theorem dropLast_sublist_of_concat {α : Type} {kept rest : List α} {last : α}
    (h : kept.Sublist (rest ++ [last])) : kept.dropLast.Sublist rest := by
  have htail := h.reverse.tail
  rw [List.reverse_append, List.reverse_singleton, List.singleton_append, List.tail_cons,
    List.tail_reverse] at htail
  exact List.reverse_sublist.mp htail

/-- Trimming the end of joined rows drops the blank ones at the end and trims the last other one. -/
theorem linesOf_trimEnd_intercalate {rows : List (List Char)} (hrows : ∀ row ∈ rows, '\n' ∉ row) :
    ((∀ row ∈ rows, trimEnd row = []) ∧ trimEnd (['\n'].intercalate rows) = []) ∨
      ∃ front last blanks, rows = front ++ last :: blanks ∧ trimEnd last ≠ [] ∧
        (∀ row ∈ blanks, trimEnd row = []) ∧
        linesOf (trimEnd (['\n'].intercalate rows)) = front ++ [trimEnd last] := by
  induction rows using List.reverseRecOn with
  | nil =>
    left
    exact ⟨List.forall_mem_nil _, rfl⟩
  | append_singleton rest row ih =>
    have hrest := ih fun other hother ↦ hrows other (List.mem_append_left _ hother)
    have hrow : '\n' ∉ row := hrows row (by simp)
    have hjoin (h : rest ≠ []) : ['\n'].intercalate (rest ++ [row]) =
        ['\n'].intercalate rest ++ '\n' :: row := by
      rw [intercalate_append h (List.cons_ne_nil _ _), List.intercalate_singleton,
        List.singleton_append]
    by_cases hblank : trimEnd row = []
    · have hsame : trimEnd (['\n'].intercalate (rest ++ [row])) =
          trimEnd (['\n'].intercalate rest) := by
        by_cases h : rest = []
        · rw [h, List.nil_append, List.intercalate_singleton, hblank]
          rfl
        · rw [hjoin h, trimEnd_append_blank_line _ hblank]
      rw [hsame]
      rcases hrest with ⟨hall, hnil⟩ | ⟨front, last, blanks, rfl, hlast, hblanks, hlines⟩
      · left
        refine ⟨?_, hnil⟩
        intro other hother
        rcases List.mem_append.mp hother with hold | hnew
        · exact hall other hold
        · rw [List.mem_singleton.mp hnew]
          exact hblank
      · right
        refine ⟨front, last, blanks ++ [row], by rw [List.append_assoc, List.cons_append], hlast,
          ?_, hlines⟩
        intro other hother
        rcases List.mem_append.mp hother with hold | hnew
        · exact hblanks other hold
        · rw [List.mem_singleton.mp hnew]
          exact hblank
    · right
      have htrimmed : '\n' ∉ trimEnd row := fun hmem ↦
        hrow ((List.rdropWhile_prefix isWhitespace row).subset hmem)
      refine ⟨rest, row, [], rfl, hblank, List.forall_mem_nil _, ?_⟩
      by_cases h : rest = []
      · rw [h, List.nil_append, List.intercalate_singleton, linesOf,
          List.splitOn_eq_singleton htrimmed, List.nil_append]
      · have hsplit : (['\n'].intercalate rest).splitOn '\n' = rest :=
          List.splitOn_intercalate '\n'
            (fun other hother ↦ hrows other (List.mem_append_left _ hother)) h
        rw [hjoin h, trimEnd_append_line _ hblank, linesOf, List.splitOn_append_cons_self, hsplit,
          List.splitOn_eq_singleton htrimmed]

/-- Rows that are not blank keep their order and, but for the last one, their text. -/
theorem kept_of_sublist_rows {rows kept : List (List Char)} (hrows : ∀ row ∈ rows, '\n' ∉ row)
    (hkept : kept.Sublist rows) (hsolid : ∀ line ∈ kept, trimEnd line ≠ []) :
    kept.dropLast.Sublist (linesOf (trimEnd (['\n'].intercalate rows))) ∧
      (kept.map trimEnd).Sublist ((linesOf (trimEnd (['\n'].intercalate rows))).map trimEnd) := by
  rcases linesOf_trimEnd_intercalate hrows with
    ⟨hall, -⟩ | ⟨front, last, blanks, rfl, -, hblanks, hlines⟩
  · have hnone : kept = [] := by
      rw [List.eq_nil_iff_forall_not_mem]
      exact fun line hline ↦ hsolid line hline (hall line (hkept.subset hline))
    rw [hnone]
    exact ⟨List.nil_sublist _, List.nil_sublist _⟩
  · have hfilter := hkept.filter fun line ↦ trimEnd line ≠ []
    have hall : kept.filter (fun line ↦ trimEnd line ≠ []) = kept := by
      rw [List.filter_eq_self]
      exact fun line hline ↦ decide_eq_true (hsolid line hline)
    have hblank : blanks.filter (fun line ↦ trimEnd line ≠ []) = [] := by
      rw [List.filter_eq_nil_iff]
      intro line hline
      rw [decide_eq_true_eq, not_not]
      exact hblanks line hline
    have hfront : kept.Sublist (front ++ [last]) := by
      rw [hall, ← List.singleton_append, ← List.append_assoc, List.filter_append, hblank,
        List.append_nil] at hfilter
      exact hfilter.trans List.filter_sublist
    rw [hlines]
    constructor
    · exact (dropLast_sublist_of_concat hfront).trans (List.sublist_append_left _ _)
    · have hmap := hfront.map trimEnd
      rw [List.map_append, List.map_singleton] at hmap ⊢
      rw [trimEnd_trimEnd]
      exact hmap

/-! ## What a call leaves of a file -/

/-- What a file has besides the block. -/
def cleaned (content : List Char) : List Char := trimEnd (stripManagedSections content)

/-- The exclude file with a block behind such text. -/
def withBlock (opts : GitExcludeOptions) (user : List Char) : List Char :=
  (if user = [] then [] else user ++ ['\n', '\n']) ++ buildFlockctlBlock opts ++ ['\n']

variable (opts : GitExcludeOptions)

theorem nextExclude_eq (current : List Char) :
    nextExclude opts current = withBlock opts (cleaned current) := rfl

def withLineFeed (user : List Char) : List Char := if user = [] then [] else user ++ ['\n']

theorem stripLegacyGitignoreBlock_eq (current : List Char) :
    stripLegacyGitignoreBlock current = withLineFeed (cleaned current) := rfl

theorem lineFeed_not_mem_linesOf {content line : List Char} (h : line ∈ linesOf content) :
    '\n' ∉ line := not_mem_of_mem_splitOn h

/-- Every managed pattern is a trimmed text without the symbol of the markers. -/
theorem managed_facts : ∀ pattern ∈ ALL_MANAGED_PATTERNS,
    trim pattern = pattern ∧ '─' ∉ pattern ∧ pattern ≠ [] := by
  have hall : ALL_MANAGED_PATTERNS.all (fun pattern ↦
      decide (trim pattern = pattern ∧ '─' ∉ pattern ∧ pattern ≠ [])) = true := by
    decide +kernel
  exact fun pattern hpattern ↦ of_decide_eq_true (List.all_eq_true.mp hall pattern hpattern)

theorem isManaged_nil : isManaged [] = false := by
  rw [isManaged, Bool.eq_false_iff]
  exact fun hmem ↦ (managed_facts _ (List.contains_iff_mem.mp hmem)).2.2 rfl

theorem cleaned_nil : cleaned [] = [] := by
  have hlines : (withoutBlock []).splitOn '\n' = [[]] := rfl
  rw [cleaned, stripManagedSections, hlines, List.filter_cons_of_pos (by rw [isManaged_nil]; rfl)]
  rfl

theorem isManaged_trimEnd (line : List Char) : isManaged (trimEnd line) = isManaged line := by
  rw [isManaged, trim_trimEnd, isManaged]

/-- No line is managed any more. -/
theorem isManaged_of_mem_cleaned {content line : List Char} (h : line ∈ linesOf (cleaned content)) :
    isManaged line = false := by
  have hrows : ∀ row ∈ ((withoutBlock content).splitOn '\n').filter (!isManaged ·),
      '\n' ∉ row ∧ isManaged row = false := by
    intro row hrow
    obtain ⟨hmem, hmanaged⟩ := List.mem_filter.mp hrow
    exact ⟨not_mem_of_mem_splitOn hmem, by simpa using hmanaged⟩
  rw [cleaned, stripManagedSections] at h
  rcases linesOf_trimEnd_intercalate fun row hrow ↦ (hrows row hrow).1 with
    ⟨-, hnil⟩ | ⟨front, last, blanks, hsplit, -, -, hlines⟩
  · rw [hnil] at h
    rw [List.mem_singleton.mp (show line ∈ [[]] from h)]
    exact isManaged_nil
  · rw [hlines, List.mem_append, List.mem_singleton] at h
    rcases h with hfront | rfl
    · exact (hrows line (hsplit ▸ List.mem_append_left _ hfront)).2
    · rw [isManaged_trimEnd]
      exact (hrows last (hsplit ▸ List.mem_append_right _ List.mem_cons_self)).2

variable (content : List Char)

theorem trimEnd_cleaned : trimEnd (cleaned content) = cleaned content :=
  trimEnd_trimEnd _

/-- No more begin markers are left than were without an end marker behind them. -/
theorem beginCount_cleaned_le :
    beginCount (cleaned content) ≤ strayCount content := by
  calc
    beginCount (cleaned content) = beginCount (stripManagedSections content) :=
      beginCount_trimEnd _
    _ = ((((withoutBlock content).splitOn '\n').filter (!isManaged ·)).map beginCount).sum :=
      beginCount_intercalate _
    _ ≤ (((withoutBlock content).splitOn '\n').map beginCount).sum :=
      sum_beginCount_le List.filter_sublist
    _ = beginCount (withoutBlock content) := sum_beginCount_splitOn _
    _ ≤ strayCount content := beginCount_withoutBlock_le content

/-- Lines of which no two hold a begin marker and, on it or behind, an end marker. -/
theorem unpaired_intercalate_iff {lines : List (List Char)} :
    Unpaired (['\n'].intercalate lines) ↔ (∀ line ∈ lines, Unpaired line) ∧
      lines.Pairwise fun first later ↦ GIT_EXCLUDE_BEGIN_MARKER <:+: first →
        ¬GIT_EXCLUDE_END_MARKER <:+: later := by
  induction lines with
  | nil =>
    constructor
    · exact fun _ ↦ ⟨List.forall_mem_nil _, List.Pairwise.nil⟩
    · intro _
      apply unpaired_of_no_begin
      rw [List.intercalate_nil, List.infix_nil]
      exact begin_ne_nil
  | cons line rest ih =>
    rw [List.forall_mem_cons, List.pairwise_cons]
    by_cases hrest : rest = []
    · rw [hrest, List.intercalate_singleton]
      constructor
      · exact fun h ↦ ⟨⟨h, List.forall_mem_nil _⟩, List.forall_mem_nil _, List.Pairwise.nil⟩
      · exact fun h ↦ h.1.1
    · rw [List.intercalate_cons_of_ne_nil hrest, List.append_assoc, List.singleton_append]
      have hbehind : GIT_EXCLUDE_END_MARKER <:+: ['\n'].intercalate rest ↔
          ∃ other ∈ rest, GIT_EXCLUDE_END_MARKER <:+: other := by
        rw [← end_infix_linesText_iff, linesText_eq_intercalate hrest,
          infix_append_cons_iff lineFeed_not_mem_end end_ne_nil, List.infix_nil,
          or_iff_left end_ne_nil]
      constructor
      · intro h
        have htail := ih.mp (h.of_infix ((List.suffix_cons _ _).isInfix.trans
          (List.suffix_append _ _).isInfix))
        refine ⟨⟨h.of_infix (List.prefix_append _ _).isInfix, htail.1⟩, ?_, htail.2⟩
        rintro other hother ⟨front, back, hline⟩ hinside
        apply h front (back ++ '\n' :: ['\n'].intercalate rest)
        · rw [← hline]
          simp only [List.append_assoc]
        · rw [infix_append_cons_iff lineFeed_not_mem_end end_ne_nil, hbehind]
          exact Or.inr ⟨other, hother, hinside⟩
      · rintro ⟨⟨hline, hall⟩, hhead, htail⟩ front back hsplit hinside
        rcases eq_append_of_append_cons_eq lineFeed_not_mem_begin begin_ne_nil hsplit with
          ⟨back', hhere, rfl⟩ | ⟨front', hthere, -⟩
        · rw [infix_append_cons_iff lineFeed_not_mem_end end_ne_nil, hbehind] at hinside
          rcases hinside with hsame | ⟨other, hother, hlater⟩
          · exact hline front back' hhere hsame
          · exact hhead other hother ⟨front, back', by rw [hhere, List.append_assoc]⟩ hlater
        · exact ih.mpr ⟨hall, htail⟩ front' back hthere hinside

theorem unpaired_cleaned : Unpaired (cleaned content) := by
  have hall := unpaired_withoutBlock content
  have hjoin : ['\n'].intercalate ((withoutBlock content).splitOn '\n') = withoutBlock content :=
    List.intercalate_splitOn '\n'
  rw [← hjoin, unpaired_intercalate_iff] at hall
  have hfilter : Unpaired (stripManagedSections content) := by
    rw [stripManagedSections, unpaired_intercalate_iff]
    exact ⟨fun line hline ↦ hall.1 line (List.mem_of_mem_filter hline), hall.2.filter _⟩
  exact hfilter.of_infix (List.rdropWhile_prefix _ _).isInfix

/-- Text that is trimmed and has no managed line stays as it is, a line feed behind it apart. -/
theorem cleaned_eq_of_withoutBlock {content user : List Char}
    (hcontent : withoutBlock content = user ++ ['\n']) (htrimmed : trimEnd user = user)
    (hlines : ∀ line ∈ linesOf user, isManaged line = false) : cleaned content = user := by
  have hfilter : ((withoutBlock content).splitOn '\n').filter (!isManaged ·) =
      (withoutBlock content).splitOn '\n' := by
    rw [List.filter_eq_self, hcontent, List.splitOn_append_cons_self]
    intro line hline
    rcases List.mem_append.mp hline with huser | hempty
    · rw [hlines line huser, Bool.not_false]
    · rw [List.mem_singleton.mp (show line ∈ [[]] from hempty), isManaged_nil, Bool.not_false]
  rw [cleaned, stripManagedSections, hfilter, List.intercalate_splitOn, hcontent,
    trimEnd_append_blank_line _ rfl, htrimmed]

/-- Nothing more is taken from what is left of a file. -/
theorem cleaned_withLineFeed :
    cleaned (withLineFeed (cleaned content)) = cleaned content := by
  rw [withLineFeed]
  split
  · rename_i hnil
    rw [hnil]
    exact cleaned_nil
  · exact cleaned_eq_of_withoutBlock (withoutBlock_of_unpaired (unpaired_cleaned content).concat)
      (trimEnd_cleaned content) fun _ ↦ isManaged_of_mem_cleaned

/-! ## The exclude file -/

/-- The patterns of a block hold no symbol of a marker, no line feed and no marker. -/
theorem pattern_facts : ∀ pattern ∈ buildPatternList opts,
    '#' ∉ pattern ∧ '\n' ∉ pattern ∧ isMarker pattern = false := by
  have hall : (buildPatternList opts).all (fun pattern ↦
      !pattern.contains '#' && !pattern.contains '\n' && !isMarker pattern) = true := by
    obtain ⟨flockctl, todo, agentsMd⟩ := opts
    revert flockctl todo agentsMd
    decide +kernel
  intro pattern hpattern
  have hfacts := List.all_eq_true.mp hall pattern hpattern
  simpa [and_assoc] using hfacts

theorem patternList_ne_nil : buildPatternList opts ≠ [] := by
  have hfirst : (if opts.flockctl then [".claude/skills/".toList, ".mcp.json".toList,
      GIT_EXCLUDE_FLOCKCTL_PATTERN] else GIT_EXCLUDE_BASE_PATTERNS) ≠ [] := by
    split <;> exact List.cons_ne_nil _ _
  rw [buildPatternList, List.append_assoc]
  exact List.append_ne_nil_of_left_ne_nil hfirst _

/-- The lines of a block. -/
def blockLines (opts : GitExcludeOptions) : List (List Char) :=
  GIT_EXCLUDE_BEGIN_MARKER :: (buildPatternList opts ++ [GIT_EXCLUDE_END_MARKER])

/-- The lines in front of a block. -/
def frontLines (user : List Char) : List (List Char) :=
  if user = [] then [] else linesOf user ++ [[]]

theorem withBlock_eq_linesText (user : List Char) :
    withBlock opts user = linesText (frontLines user ++ blockLines opts) := by
  have hblock : linesText (blockLines opts) = buildFlockctlBlock opts ++ ['\n'] :=
    linesText_eq_intercalate (List.cons_ne_nil _ _)
  rw [withBlock, linesText_append, hblock, List.append_assoc, frontLines]
  split
  · rfl
  · rw [linesText_append, linesOf, linesText_splitOn, linesText_cons]
    simp only [linesText, List.flatMap_nil, List.append_assoc, List.cons_append, List.nil_append]

theorem linesOf_withBlock (user : List Char) :
    linesOf (withBlock opts user) = frontLines user ++ (blockLines opts ++ [[]]) := by
  rw [withBlock_eq_linesText, linesOf, splitOn_linesText, List.append_assoc]
  intro line hline
  rcases List.mem_append.mp hline with hfront | hblock
  · rw [frontLines] at hfront
    split at hfront
    · cases hfront
    · rcases List.mem_append.mp hfront with huser | hempty
      · exact lineFeed_not_mem_linesOf huser
      · rw [List.mem_singleton.mp hempty]
        exact List.not_mem_nil
  · rw [blockLines, List.mem_cons, List.mem_append, List.mem_singleton] at hblock
    rcases hblock with rfl | hpattern | rfl
    · exact lineFeed_not_mem_begin
    · exact (pattern_facts opts line hpattern).2.1
    · exact lineFeed_not_mem_end

/-- All begin markers of an exclude file with a block are closed. -/
theorem strayCount_withBlock (user : List Char) :
    strayCount (withBlock opts user) = 0 := by
  have hfront : frontLines user ++ GIT_EXCLUDE_BEGIN_MARKER :: buildPatternList opts ≠ [] :=
    List.append_ne_nil_of_right_ne_nil _ (List.cons_ne_nil _ _)
  have htext : withBlock opts user =
      (linesText (frontLines user ++ GIT_EXCLUDE_BEGIN_MARKER :: buildPatternList opts) ++
        GIT_EXCLUDE_END_MARKER) ++ '\n' :: [] := by
    rw [withBlock_eq_linesText, blockLines, ← List.cons_append, ← List.append_assoc,
      linesText_append, linesText_cons, List.append_assoc]
    rfl
  rw [htext, strayCount_closed_append (closed_block isEnd_end _ hfront)]
  rfl

theorem withBlock_injective : Function.Injective (withBlock opts) := by
  intro user other h
  have hfront := List.append_cancel_right (List.append_cancel_right h)
  split at hfront
  · split at hfront
    · rename_i huser hother
      rw [huser, hother]
    · exact absurd hfront.symm (List.append_ne_nil_of_right_ne_nil _ (List.cons_ne_nil _ _))
  · split at hfront
    · exact absurd hfront (List.append_ne_nil_of_right_ne_nil _ (List.cons_ne_nil _ _))
    · exact List.append_cancel_right hfront

/-- Where a call repeats itself, no begin marker is in front of the block. -/
theorem not_begin_infix_of_repeats {opts : GitExcludeOptions} {content : List Char}
    (h : nextExclude opts (nextExclude opts content) = nextExclude opts content) :
    beginCount (cleaned content) = 0 := by
  rw [nextExclude_eq, nextExclude_eq] at h
  have hsame := withBlock_injective opts h
  have hle := beginCount_cleaned_le (withBlock opts (cleaned content))
  rw [hsame, strayCount_withBlock] at hle
  exact Nat.le_zero.mp hle

theorem rdropWhile_of_trimmed {user : List Char} (h : trimEnd user = user) :
    user.rdropWhile isLineFeed = user := by
  rw [trimEnd, List.rdropWhile_eq_self_iff] at h
  rw [List.rdropWhile_eq_self_iff]
  intro hne hlast
  apply h hne
  rw [eq_of_beq hlast]
  decide

theorem buildFlockctlBlock_eq :
    buildFlockctlBlock opts = GIT_EXCLUDE_BEGIN_MARKER ++
      (('\n' :: (['\n'].intercalate (buildPatternList opts) ++ ['\n'])) ++
        GIT_EXCLUDE_END_MARKER) := by
  rw [buildFlockctlBlock, intercalate_append (List.cons_ne_nil _ _) (List.cons_ne_nil _ _),
    List.intercalate_cons_of_ne_nil (patternList_ne_nil opts), List.intercalate_singleton]
  simp only [List.append_assoc, List.cons_append, List.nil_append]

/-- The next end marker behind a begin marker is the one of the block. -/
theorem cutAt_end_of_block :
    cutAt (('\n' :: (['\n'].intercalate (buildPatternList opts) ++ ['\n'])) ++
        (GIT_EXCLUDE_END_MARKER ++ ['\n'])) GIT_EXCLUDE_END_MARKER =
      some ('\n' :: (['\n'].intercalate (buildPatternList opts) ++ ['\n']), ['\n']) := by
  have hpatterns : '#' ∉ ['\n'].intercalate (buildPatternList opts) :=
    not_mem_intercalate (by decide) fun pattern hpattern ↦ (pattern_facts opts pattern hpattern).1
  have hfree : '#' ∉ '\n' :: (['\n'].intercalate (buildPatternList opts) ++ ['\n']) := by
    rw [List.mem_cons, List.mem_append, not_or, not_or]
    exact ⟨by decide, hpatterns, by decide⟩
  rw [end_eq_cons]
  exact cutAt_append hfree

section

variable {user : List Char} (hbegin : beginCount user = 0) (htrimmed : trimEnd user = user)

include hbegin

theorem isBegin_of_mem_frontLines {line : List Char} (h : line ∈ frontLines user) :
    isBegin line = false := by
  rw [Bool.eq_false_iff]
  intro hline
  have hinside := begin_infix_of_isBegin hline
  have hzero : beginCount line = 0 := by
    rw [frontLines] at h
    split at h
    · cases h
    · rcases List.mem_append.mp h with huser | hempty
      · have hsum := sum_beginCount_splitOn user
        rw [hbegin, List.sum_eq_zero_iff] at hsum
        exact hsum _ (List.mem_map_of_mem huser)
      · rw [List.mem_singleton.mp hempty]
        rfl
  exact (beginCount_eq_zero_iff line).mp hzero hinside

/-- The file has one block, and outside of it only the text in front and blank lines. -/
theorem outside_withBlock (opts : GitExcludeOptions) :
    outside (linesOf (withBlock opts user)) = frontLines user ++ [[]] ∧
      blocks 0 (linesOf (withBlock opts user)) = [buildPatternList opts] := by
  have hfront : ∀ line ∈ frontLines user, isBegin line = false := fun line hline ↦
    isBegin_of_mem_frontLines hbegin hline
  have hfirst := isBegin_begin
  have hlast := isEnd_end
  have hinner : ∀ line ∈ buildPatternList opts, isMarker line = false := fun line hline ↦
    (pattern_facts opts line hline).2.2
  have hblock : blockLines opts ++ [[]] =
      GIT_EXCLUDE_BEGIN_MARKER :: (buildPatternList opts ++ GIT_EXCLUDE_END_MARKER :: [[]]) := by
    rw [blockLines, List.cons_append, List.append_assoc, List.singleton_append]
  rw [linesOf_withBlock, outside_append hfront, blocks_append hfront, hblock,
    blocks_block hfirst hlast hinner, outside, outsideTails_block hfirst hlast hinner]
  exact ⟨rfl, rfl⟩

/-- The next call finds the text in front of the block. -/
theorem cleaned_withBlock (htrimmed : trimEnd user = user)
    (hlines : ∀ line ∈ linesOf user, isManaged line = false) (opts : GitExcludeOptions) :
    cleaned (withBlock opts user) = user := by
  apply cleaned_eq_of_withoutBlock _ htrimmed hlines
  have hhead (rest : List Char) :
      cutAt (GIT_EXCLUDE_BEGIN_MARKER ++ rest) GIT_EXCLUDE_BEGIN_MARKER = some ([], rest) := by
    rw [cutAt_eq_some_iff]
    exact ⟨rfl, fun _ _ _ ↦ Nat.zero_le _⟩
  have hend := cutAt_end_of_block opts
  have htext : withBlock opts user = (if user = [] then [] else user ++ ['\n', '\n']) ++
      (GIT_EXCLUDE_BEGIN_MARKER ++
        (('\n' :: (['\n'].intercalate (buildPatternList opts) ++ ['\n'])) ++
          (GIT_EXCLUDE_END_MARKER ++ ['\n']))) := by
    rw [withBlock, buildFlockctlBlock_eq]
    simp only [List.append_assoc]
  rw [htext]
  split
  · rename_i hnil
    rw [List.nil_append, withoutBlock_of_cutAt (hhead _) hend, hnil]
    rfl
  · have hnot : ¬GIT_EXCLUDE_BEGIN_MARKER <:+: user ++ ['\n'] := by
      rw [infix_append_cons_iff lineFeed_not_mem_begin begin_ne_nil, List.infix_nil, not_or]
      exact ⟨(beginCount_eq_zero_iff user).mp hbegin, begin_ne_nil⟩
    have hcut (rest : List Char) :
        cutAt (user ++ ['\n', '\n'] ++ (GIT_EXCLUDE_BEGIN_MARKER ++ rest))
          GIT_EXCLUDE_BEGIN_MARKER = some (user ++ ['\n', '\n'], rest) := by
      have hfirst : cutAt (user ++ ['\n'] ++ '\n' :: (GIT_EXCLUDE_BEGIN_MARKER ++ rest))
          GIT_EXCLUDE_BEGIN_MARKER = _ :=
        cutAt_append_cons lineFeed_not_mem_begin begin_ne_nil hnot
      rw [hhead, Option.map_some] at hfirst
      simpa only [List.append_assoc, List.cons_append, List.nil_append] using hfirst
    have hdrop : (user ++ ['\n', '\n']).rdropWhile isLineFeed = user := by
      rw [← List.singleton_append, ← List.append_assoc,
        List.rdropWhile_concat_pos _ _ _ (by decide), List.rdropWhile_concat_pos _ _ _ (by decide),
        rdropWhile_of_trimmed htrimmed]
    rw [withoutBlock_of_cutAt (hcut _) hend, hdrop]
    rfl

end

/-! ## Every sequence of calls -/

theorem isManaged_of_isPattern {line : List Char} (h : isPattern line = true) :
    isManaged line = true := by
  have hmem : trimEnd line ∈ ALL_MANAGED_PATTERNS := List.contains_iff_mem.mp h
  have hsame : trim line = trimEnd line := by
    rw [← trim_trimEnd]
    exact (managed_facts _ hmem).1
  rw [isManaged, hsame]
  exact h

/-- A managed line and a blank one have no begin marker. -/
theorem beginCount_of_not_needed {line : List Char}
    (h : (!isPattern line && trim line ≠ []) = false) : beginCount line = 0 := by
  rw [beginCount_eq_zero_iff]
  apply not_begin_infix_of_trim rule_mem_begin (by decide)
  rw [Bool.and_eq_false_iff] at h
  rcases h with hpattern | hblank
  · have hmanaged := isManaged_of_isPattern (by simpa using hpattern : isPattern line = true)
    exact (managed_facts _ (List.contains_iff_mem.mp hmanaged)).2.1
  · have hnil : trim line = [] := by simpa using hblank
    rw [hnil]
    exact List.not_mem_nil

theorem sum_beginCount_needed :
    ((needed content).map beginCount).sum = ((outside (linesOf content)).map beginCount).sum :=
  sum_beginCount_filter fun _ _ h ↦ beginCount_of_not_needed h

/-- Kept lines keep their begin markers. -/
theorem sum_beginCount_le_of_keeps {old new : List Char} (h : Keeps old new) :
    ((outside (linesOf old)).map beginCount).sum ≤ ((outside (linesOf new)).map beginCount).sum := by
  have hsum (lines : List (List Char)) :
      ((lines.map trimEnd).map beginCount).sum = (lines.map beginCount).sum := by
    rw [List.map_map]
    congr 2
    funext line
    exact beginCount_trimEnd line
  calc
    ((outside (linesOf old)).map beginCount).sum = ((needed old).map beginCount).sum :=
      (sum_beginCount_needed old).symm
    _ = (((needed old).map trimEnd).map beginCount).sum := (hsum _).symm
    _ ≤ (((outside (linesOf new)).map trimEnd).map beginCount).sum := sum_beginCount_le h.2
    _ = ((outside (linesOf new)).map beginCount).sum := hsum _

theorem linesText_linesOf : linesText (linesOf content) = content ++ ['\n'] :=
  linesText_splitOn content

/-- Without a stray begin marker that an end marker follows, the needed lines are among the lines
that are left. -/
theorem keeps_cleaned {content : List Char} (hstrays : StraysUnpaired (linesOf content))
    (hindented : NoIndentedPattern content) :
    (needed content).dropLast.Sublist (linesOf (cleaned content)) ∧
      ((needed content).map trimEnd).Sublist ((linesOf (cleaned content)).map trimEnd) := by
  have hlines : ∀ line ∈ linesOf content, '\n' ∉ line := fun _ ↦ lineFeed_not_mem_linesOf
  have hsolid := outside_sublist_withoutBlock hstrays hlines
  rw [linesText_linesOf, solidLines_withoutBlock_concat] at hsolid
  have hkept : (needed content).Sublist
      (((withoutBlock content).splitOn '\n').filter (!isManaged ·)) := by
    have hfilter := (hsolid.trans List.filter_sublist).filter (!isManaged ·)
    rw [List.filter_filter] at hfilter
    have hsame : needed content = (outside (linesOf content)).filter
        fun line ↦ !isManaged line && decide (trim line ≠ []) := by
      apply List.filter_congr
      intro line hline
      have hiff : isManaged line = isPattern line := by
        rw [Bool.eq_iff_iff]
        exact ⟨hindented line hline, isManaged_of_isPattern⟩
      rw [hiff]
    rw [hsame]
    exact hfilter
  apply kept_of_sublist_rows _ hkept
  · intro line hline
    have hneeded := (List.mem_filter.mp hline).2
    rw [ne_eq, trimEnd_eq_nil_iff]
    exact of_decide_eq_true (Bool.and_eq_true_iff.mp hneeded).2
  · intro row hrow
    exact not_mem_of_mem_splitOn (List.mem_of_mem_filter hrow)

theorem keeps_of_sublist {old new : List Char} (hstrays : StraysUnpaired (linesOf old))
    (hindented : NoIndentedPattern old)
    (hnew : (linesOf (cleaned old)).Sublist (outside (linesOf new))) : Keeps old new := by
  obtain ⟨hexact, htrimmed⟩ := keeps_cleaned hstrays hindented
  exact ⟨hexact.trans hnew, htrimmed.trans (hnew.map trimEnd)⟩

/-- A file keeps its own lines, and so does one with the same lines outside of blocks. -/
theorem keeps_of_outside_eq {old new : List Char}
    (h : outside (linesOf new) = outside (linesOf old)) : Keeps old new := by
  rw [Keeps, h]
  have hneeded : (needed old).Sublist (outside (linesOf old)) := List.filter_sublist
  exact ⟨(List.dropLast_sublist _).trans hneeded, hneeded.map trimEnd⟩

theorem outside_linesOf_of_unpaired {text : List Char} (h : Unpaired text) :
    outside (linesOf text) = linesOf text := by
  have hjoin : ['\n'].intercalate (linesOf text) = text := List.intercalate_splitOn '\n'
  rw [← hjoin, unpaired_intercalate_iff] at h
  apply outside_of_pairwise
  apply h.2.imp
  intro first later hpair hfirst
  rw [Bool.eq_false_iff]
  exact fun hlater ↦ hpair (begin_infix_of_isBegin hfirst) (end_infix_of_isEnd hlater)

theorem outside_withLineFeed {user : List Char} (h : Unpaired user) :
    outside (linesOf (withLineFeed user)) =
      if user = [] then [[]] else linesOf user ++ [[]] := by
  rw [withLineFeed]
  split
  · rfl
  · rw [outside_linesOf_of_unpaired h.concat, linesOf, List.splitOn_append_cons_self]
    rfl

/-- A managed line that is no pattern is not kept by a file without managed lines. -/
theorem noIndentedPattern_of_keeps {old new : List Char} (h : Keeps old new)
    (hnew : ∀ line ∈ outside (linesOf new), isManaged line = false) : NoIndentedPattern old := by
  intro line hline hmanaged
  by_contra hpattern
  have hsolid : trim line ≠ [] := by
    intro hblank
    rw [isManaged, hblank, List.contains_iff_mem] at hmanaged
    exact (managed_facts _ hmanaged).2.2 rfl
  have hneeded : line ∈ needed old := by
    rw [needed, List.mem_filter, Bool.eq_false_iff.mpr hpattern]
    exact ⟨hline, by simpa using hsolid⟩
  obtain ⟨other, hother, hsame⟩ := List.mem_map.mp (h.2.subset (List.mem_map_of_mem hneeded))
  have hfree := hnew other hother
  rw [← isManaged_trimEnd, hsame, isManaged_trimEnd, hmanaged] at hfree
  cases hfree

theorem isManaged_of_mem_withLineFeed {content line : List Char}
    (h : line ∈ outside (linesOf (withLineFeed (cleaned content)))) : isManaged line = false := by
  have hempty := isManaged_nil
  rw [outside_withLineFeed (unpaired_cleaned content)] at h
  split at h
  · rw [List.mem_singleton.mp h]
    exact hempty
  · rcases List.mem_append.mp h with huser | hlast
    · exact isManaged_of_mem_cleaned huser
    · rw [List.mem_singleton.mp hlast]
      exact hempty

/-- A file that is only cleaned keeps its lines exactly when no end marker follows a stray begin
marker and no managed pattern has white space in front of it. -/
theorem keeps_withLineFeed_iff :
    Keeps content (withLineFeed (cleaned content)) ↔
      StraysUnpaired (linesOf content) ∧ NoIndentedPattern content := by
  have hsame : outside (linesOf (withLineFeed (cleaned content))) =
      if cleaned content = [] then [[]] else linesOf (cleaned content) ++ [[]] :=
    outside_withLineFeed (unpaired_cleaned content)
  constructor
  · intro h
    refine ⟨?_, noIndentedPattern_of_keeps h fun _ ↦ isManaged_of_mem_withLineFeed⟩
    by_contra hstrays
    have hlt := strayCount_linesText_lt hstrays
    rw [linesText_linesOf, strayCount_concat] at hlt
    have hle := sum_beginCount_le_of_keeps h
    have hnew : ((outside (linesOf (withLineFeed (cleaned content)))).map beginCount).sum =
        beginCount (cleaned content) := by
      rw [hsame]
      split
      · rename_i hnil
        rw [hnil]
        rfl
      · rw [List.map_append, List.sum_append, linesOf, sum_beginCount_splitOn]
        rfl
    have hcleaned := beginCount_cleaned_le content
    omega
  · rintro ⟨hstrays, hindented⟩
    apply keeps_of_sublist hstrays hindented
    rw [hsame]
    split
    · rename_i hnil
      rw [hnil]
      exact List.Sublist.refl _
    · exact List.sublist_append_left _ _

theorem sum_beginCount_outside_withBlock {user : List Char} (h : beginCount user = 0)
    (opts : GitExcludeOptions) :
    ((outside (linesOf (withBlock opts user))).map beginCount).sum = 0 := by
  rw [(outside_withBlock h opts).1, frontLines]
  split
  · rfl
  · rw [List.map_append, List.sum_append, List.map_append, List.sum_append, linesOf,
      sum_beginCount_splitOn, h]
    rfl

/-- One call keeps the lines of the exclude file and repeats itself exactly when no begin marker is
outside of complete blocks and no managed pattern has white space in front of it. -/
theorem keeps_nextExclude_iff (content : List Char) :
    (Keeps content (nextExclude opts content) ∧
        nextExclude opts (nextExclude opts content) = nextExclude opts content) ↔
      NoStrays (linesOf content) ∧ NoIndentedPattern content := by
  have hempty := isManaged_nil
  constructor
  · rintro ⟨hkeeps, hrepeats⟩
    have hbegin := not_begin_infix_of_repeats hrepeats
    constructor
    · intro line hline
      have hle := sum_beginCount_le_of_keeps hkeeps
      rw [nextExclude_eq, sum_beginCount_outside_withBlock hbegin] at hle
      rw [← beginCount_eq_zero_iff]
      exact List.sum_eq_zero_iff.mp (Nat.le_zero.mp hle) _ (List.mem_map_of_mem hline)
    · apply noIndentedPattern_of_keeps hkeeps
      intro line hline
      rw [nextExclude_eq, (outside_withBlock hbegin opts).1, frontLines, List.mem_append] at hline
      rcases hline with hfront | hlast
      · split at hfront
        · cases hfront
        · rcases List.mem_append.mp hfront with huser | hblank
          · exact isManaged_of_mem_cleaned huser
          · rw [List.mem_singleton.mp hblank]
            exact hempty
      · rw [List.mem_singleton.mp hlast]
        exact hempty
  · rintro ⟨hstrays, hindented⟩
    have hbegin : beginCount (cleaned content) = 0 := by
      have hle := strayCount_linesText_le (linesOf content)
      rw [linesText_linesOf, strayCount_concat] at hle
      have hzero : ((outside (linesOf content)).map beginCount).sum = 0 := by
        rw [List.sum_eq_zero_iff]
        intro count hcount
        obtain ⟨line, hline, rfl⟩ := List.mem_map.mp hcount
        exact (beginCount_eq_zero_iff line).mpr (hstrays line hline)
      have hcleaned := beginCount_cleaned_le content
      omega
    rw [nextExclude_eq, nextExclude_eq,
      cleaned_withBlock hbegin (trimEnd_cleaned content) fun _ ↦ isManaged_of_mem_cleaned]
    refine ⟨?_, rfl⟩
    apply keeps_of_sublist hstrays.straysUnpaired hindented
    rw [(outside_withBlock hbegin opts).1, frontLines]
    split
    · rename_i hnil
      rw [hnil]
      exact List.Sublist.refl _
    · exact (List.sublist_append_left _ _).trans (List.sublist_append_left _ _)

theorem runCalls_concat (files : IgnoreFiles) (calls : List GitExcludeOptions)
    (opts : GitExcludeOptions) :
    runCalls files (calls ++ [opts]) = ensureGitExclude (runCalls files calls) opts := by
  rw [runCalls, List.foldl_append]
  rfl

/-- From the first call on the files have the text that the first call left of them. -/
theorem runCalls_eq {files : IgnoreFiles} (hstrays : NoStrays (linesOf (files.exclude.getD [])))
    (hindented : NoIndentedPattern (files.exclude.getD [])) (calls : List GitExcludeOptions)
    (opts : GitExcludeOptions) :
    runCalls files (calls ++ [opts]) = {
      gitignore := files.gitignore.map fun content ↦ withLineFeed (cleaned content)
      exclude := some (withBlock opts (cleaned (files.exclude.getD []))) } := by
  induction calls using List.reverseRecOn generalizing opts with
  | nil => rfl
  | append_singleton rest earlier ih =>
    have hrepeats := ((keeps_nextExclude_iff earlier _).mpr ⟨hstrays, hindented⟩).2
    have hbegin := not_begin_infix_of_repeats hrepeats
    have hexclude := cleaned_withBlock hbegin (trimEnd_cleaned _)
      (fun _ ↦ isManaged_of_mem_cleaned) earlier
    have hgitignore : (stripLegacyGitignoreBlock ∘ fun content ↦ withLineFeed (cleaned content)) =
        fun content ↦ withLineFeed (cleaned content) := by
      funext content
      rw [Function.comp_apply, stripLegacyGitignoreBlock_eq, cleaned_withLineFeed]
    rw [runCalls_concat, ih, ensureGitExclude, Option.getD_some, nextExclude_eq, hexclude,
      Option.map_map, hgitignore]

/-- Every call of every sequence is a local edit exactly when no begin marker of the exclude file is
outside of complete blocks, no end marker follows such a one in `.gitignore`, and in neither file a
managed pattern has white space in front of it. -/
theorem ensureGitExclude_editsLocally_iff (files : IgnoreFiles) :
    EditsLocally files ↔
      (NoStrays (linesOf (files.exclude.getD [])) ∧ NoIndentedPattern (files.exclude.getD [])) ∧
        StraysUnpaired (linesOf (files.gitignore.getD [])) ∧
          NoIndentedPattern (files.gitignore.getD []) := by
  have hgitignore : (files.gitignore.map fun content ↦ withLineFeed (cleaned content)).getD [] =
      withLineFeed (cleaned (files.gitignore.getD [])) := by
    cases files.gitignore with
    | none =>
      rw [Option.map_none, Option.getD_none, cleaned_nil]
      rfl
    | some content => rfl
  constructor
  · intro hedits
    have hfirst := hedits [] {}
    have hrepeats := congrArg IgnoreFiles.exclude hfirst.repeats
    constructor
    · rw [← keeps_nextExclude_iff {}]
      exact ⟨hfirst.keepsExclude, Option.some.inj hrepeats⟩
    · rw [← keeps_withLineFeed_iff, ← hgitignore]
      exact hfirst.keepsGitignore
  · rintro ⟨⟨hstrays, hindented⟩, hgit⟩ calls opts
    have hrun := runCalls_eq hstrays hindented
    have hkeeps := (keeps_nextExclude_iff opts _).mpr ⟨hstrays, hindented⟩
    have hbegin := not_begin_infix_of_repeats hkeeps.2
    have hagain := hrun (calls ++ [opts]) opts
    rw [runCalls_concat] at hagain
    have hafter := hrun calls opts
    rw [hafter] at hagain ⊢
    have hblock := (outside_withBlock hbegin opts).2
    constructor
    · exact ⟨withBlock opts (cleaned (files.exclude.getD [])), rfl, hblock⟩
    · cases calls using List.reverseRecOn with
      | nil => exact hkeeps.1
      | append_singleton rest earlier =>
        rw [hrun]
        apply keeps_of_outside_eq
        rw [Option.getD_some, Option.getD_some, (outside_withBlock hbegin opts).1,
          (outside_withBlock hbegin earlier).1]
    · rw [hgitignore]
      cases calls using List.reverseRecOn with
      | nil => exact (keeps_withLineFeed_iff _).mpr hgit
      | append_singleton rest earlier =>
        rw [hrun, hgitignore]
        exact keeps_of_outside_eq rfl
    · exact hagain

/-- The options of a project without any toggle. -/
def noToggles : GitExcludeOptions := {}

/-- An exclude file with a begin marker and no end marker. -/
def damaged : IgnoreFiles where
  gitignore := none
  exclude := some (GIT_EXCLUDE_BEGIN_MARKER ++ "\nbuild/\n".toList)

/-- A second call takes the line behind the marker away. -/
theorem not_editsLocally_damaged : ¬EditsLocally damaged := by
  intro hedits
  have hrepeats := congrArg IgnoreFiles.exclude (hedits [] noToggles).repeats
  have hdiffers : (ensureGitExclude (runCalls damaged ([] ++ [noToggles])) noToggles).exclude ≠
      (runCalls damaged ([] ++ [noToggles])).exclude := by
    decide +kernel
  exact hdiffers hrepeats

end Flockctl.Claude
