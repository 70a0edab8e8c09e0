import Flockctl.Git.UnifiedDiff
import Flockctl.StateMachines.DiffReader

/-!
# Which diffs are read right

A diff between two trees is written in git's format and read back. Lines are told apart by how they
begin, so an added line whose text starts with two pluses and a blank is taken for the name of a
file; and the name of a file is read as git writes it, which for a path between quotes is not the
path. Every other diff is read right.
-/

namespace Flockctl.StateMachines

open Collections Git

/-- Added lines in a file. -/
def diffLinesIn (file : List Char) (added : List (ℕ × Line)) : List DiffLine :=
  added.map fun (line, content) ↦ { file, line, content := content.text }

/-- The added lines of a diff with the paths of the new files and the line numbers in them. -/
def addedLines (files : List FileDiff) : List DiffLine :=
  files.flatMap fun file ↦
    match file.names.newPath with
    | none => []
    | some path => diffLinesIn path.text file.added

/-- The text starts like the name of a file, once a plus is in front of it. -/
def LooksLikeHeader (text : List Char) : Prop := "++ ".toList <+: text

instance (text : List Char) : Decidable (LooksLikeHeader text) :=
  inferInstanceAs (Decidable (_ <+: _))

/-- No added line of the file looks like a header, and if there are any, the path of the new file
is written as it is. -/
structure FileIsReadable (file : FileDiff) : Prop where
  lines : ∀ added ∈ file.added, ¬LooksLikeHeader added.2.text
  path : file.added ≠ [] → ∀ path, file.names.newPath = some path → IsPlain path.text

/-! ## Lines of a text -/

theorem splitOn_flatMap_newline {lines : List (List Char)} (h : ∀ line ∈ lines, '\n' ∉ line) :
    (lines.flatMap (· ++ ['\n'])).splitOn '\n' = lines ++ [[]] := by
  induction lines with
  | nil => rfl
  | cons line rest ih =>
    rw [List.flatMap_cons, List.append_assoc, List.singleton_append,
      List.splitOn_append_cons_self, List.splitOn_eq_singleton (h line List.mem_cons_self),
      ih fun other hother ↦ h other (List.mem_cons_of_mem line hother)]
    rfl

theorem newline_not_mem_of_isPrintable {text : List Char} (h : ∀ c ∈ text, IsPrintable c) :
    '\n' ∉ text := by
  intro hmem
  exact absurd (h _ hmem) (by decide)

theorem isDigit_of_mem_decimal {n : ℕ} {c : Char} (h : c ∈ decimal n) : c.isDigit = true :=
  Nat.isDigit_of_mem_toDigits (by decide) (by decide) h

theorem newline_not_mem_rangeText (before count : ℕ) : '\n' ∉ rangeText before count := by
  have hdecimal : ∀ n, '\n' ∉ decimal n := by
    intro n hmem
    exact absurd (isDigit_of_mem_decimal hmem) (by decide)
  rw [rangeText, List.mem_append, not_or]
  constructor
  · exact hdecimal _
  · split
    · exact List.not_mem_nil
    · rw [List.mem_cons, not_or]
      exact ⟨by decide, hdecimal _⟩

theorem newline_not_mem_header (hunk : Hunk) (oldBefore newBefore : ℕ) :
    '\n' ∉ hunk.header oldBefore newBefore := by
  unfold Hunk.header
  simp only [List.mem_append, not_or]
  refine ⟨⟨⟨⟨⟨by decide, newline_not_mem_rangeText _ _⟩, by decide⟩,
    newline_not_mem_rangeText _ _⟩, by decide⟩, ?_⟩
  split
  · exact List.not_mem_nil
  next heading _ =>
    rw [List.mem_cons, not_or]
    exact ⟨by decide, heading.single⟩

theorem newline_not_mem_edit {edit : Edit} {line : List Char} (h : line ∈ edit.lines) :
    '\n' ∉ line := by
  rcases List.mem_cons.mp h with rfl | hmarker
  · rw [List.mem_cons, not_or]
    refine ⟨?_, edit.line.single⟩
    cases edit.change <;> decide
  · split at hmarker
    · rw [List.mem_singleton.mp hmarker]
      decide
    · cases hmarker

theorem newline_not_mem_hunkLines {hunks : List Hunk} {oldBefore newBefore : ℕ} {line : List Char}
    (h : line ∈ hunkLines oldBefore newBefore hunks) : '\n' ∉ line := by
  induction hunks generalizing oldBefore newBefore with
  | nil => cases h
  | cons hunk rest ih =>
    rcases List.mem_cons.mp h with rfl | hbehind
    · exact newline_not_mem_header hunk _ _
    · rcases List.mem_append.mp hbehind with hedit | hrest
      · obtain ⟨edit, -, hedit⟩ := List.mem_flatMap.mp hedit
        exact newline_not_mem_edit hedit
      · exact ih hrest

theorem newline_not_mem_nameText (name : List Char) : '\n' ∉ nameText name := by
  rw [nameText, List.mem_append, not_or]
  constructor
  · exact newline_not_mem_of_isPrintable (isPrintable_quotePath name)
  · split <;> decide

theorem newline_not_mem_oldHeader (names : FileNames) : '\n' ∉ names.oldHeader := by
  cases names with
  | created path => exact (by decide : '\n' ∉ "--- ".toList ++ diskNull)
  | deleted path =>
    rw [FileNames.oldHeader, List.mem_append, not_or]
    exact ⟨by decide, newline_not_mem_nameText _⟩
  | changed old new =>
    rw [FileNames.oldHeader, List.mem_append, not_or]
    exact ⟨by decide, newline_not_mem_nameText _⟩

theorem newline_not_mem_newHeader (names : FileNames) : '\n' ∉ names.newHeader := by
  cases names with
  | created path =>
    rw [FileNames.newHeader, List.mem_append, not_or]
    exact ⟨by decide, newline_not_mem_nameText _⟩
  | deleted path => exact (by decide : '\n' ∉ "+++ ".toList ++ diskNull)
  | changed old new =>
    rw [FileNames.newHeader, List.mem_append, not_or]
    exact ⟨by decide, newline_not_mem_nameText _⟩

theorem newline_not_mem_announced (names : FileNames) : '\n' ∉ names.announced := by
  have hquoted : ∀ name, '\n' ∉ quotePath name := fun name ↦
    newline_not_mem_of_isPrintable (isPrintable_quotePath name)
  cases names <;> simp only [FileNames.announced, List.mem_append, List.mem_cons, not_or] <;>
    exact ⟨hquoted _, by decide, hquoted _⟩

theorem newline_not_mem_file {file : FileDiff} {line : List Char} (h : line ∈ file.lines) :
    '\n' ∉ line := by
  rcases List.mem_cons.mp h with rfl | hbehind
  · rw [List.mem_append, not_or]
    exact ⟨by decide, newline_not_mem_announced _⟩
  · rcases List.mem_append.mp hbehind with hextended | hshown
    · obtain ⟨header, -, rfl⟩ := List.mem_map.mp hextended
      exact header.single
    · split at hshown
      · cases hshown
      · rcases List.mem_cons.mp hshown with rfl | hshown
        · exact newline_not_mem_oldHeader _
        · rcases List.mem_cons.mp hshown with rfl | hhunks
          · exact newline_not_mem_newHeader _
          · exact newline_not_mem_hunkLines hhunks

/-- The reader goes through the lines of the files. -/
theorem parseDiffAddedLines_diffText (files : List FileDiff) :
    parseDiffAddedLines (diffText files) =
      (((files.flatMap FileDiff.lines).foldl Reader.read .start).read []).added := by
  have hsingle : ∀ line ∈ files.flatMap FileDiff.lines, '\n' ∉ line := by
    intro line hline
    obtain ⟨file, -, hfile⟩ := List.mem_flatMap.mp hline
    exact newline_not_mem_file hfile
  rw [parseDiffAddedLines, diffText, splitOn_flatMap_newline hsingle, List.foldl_append]
  rfl

/-! ## Reading one line -/

theorem isPrefixOf_eq_false_of_head {front rest : List Char} {c : Char}
    (h : ∃ d ∈ front.head?, d ≠ c) : front.isPrefixOf (c :: rest) = false := by
  obtain ⟨d, hd, hne⟩ := h
  cases front with
  | nil => cases hd
  | cons first others =>
    cases hd
    rw [List.isPrefixOf_cons_cons, beq_false_of_ne hne, Bool.false_and]

theorem any_passedOver_eq_false {rest : List Char} {c : Char}
    (h : (passedOver.all fun front ↦ front.head?.any (· != c)) = true) :
    passedOver.any (·.isPrefixOf (c :: rest)) = false := by
  rw [List.any_eq_false]
  intro front hfront
  obtain ⟨d, hd, hne⟩ := (Option.any_eq_true ..).mp (List.all_eq_true.mp h front hfront)
  rw [isPrefixOf_eq_false_of_head ⟨d, hd, bne_iff_ne.mp hne⟩]
  exact Bool.false_ne_true

theorem hunkStart_eq_none {c : Char} {rest : List Char} (h : '@' ≠ c) :
    hunkStart (c :: rest) = none := by
  have hfront : behindFront "@@ -".toList (c :: rest) = none := by
    rw [behindFront, isPrefixOf_eq_false_of_head ⟨'@', rfl, h⟩]
    rfl
  rw [hunkStart, hfront]
  rfl

variable (reader : Reader)

/-- A line that starts with a letter, a minus or a backslash changes nothing. -/
theorem read_of_ignored {c : Char} {rest : List Char} (hplus : c ≠ '+')
    (hblank : c ≠ ' ') (hhunk : '@' ≠ c) : reader.read (c :: rest) = reader := by
  rw [Reader.read, isPrefixOf_eq_false_of_head ⟨'+', rfl, hplus.symm⟩, if_neg Bool.false_ne_true,
    hunkStart_eq_none hhunk]
  split
  · rfl
  · dsimp only
    split
    · rfl
    · split
      next hline => exact absurd (List.cons.inj hline).1 hplus
      next hline => exact absurd (List.cons.inj hline).1 hblank
      · rfl

theorem read_nil : reader.read [] = reader := by
  have hpassed : passedOver.any (·.isPrefixOf []) = false := by decide
  have hhunk : hunkStart [] = none := by decide
  have hplus : "+++ ".toList.isPrefixOf [] = false := by decide
  rw [Reader.read, hplus, if_neg Bool.false_ne_true, hpassed, if_neg Bool.false_ne_true, hhunk]
  dsimp only
  split <;> rfl

theorem read_blank (rest : List Char) :
    reader.read (' ' :: rest) =
      { reader with newLineNo :=
          if reader.currentFile = none then reader.newLineNo else reader.newLineNo + 1 } := by
  rw [Reader.read, isPrefixOf_eq_false_of_head ⟨'+', rfl, by decide⟩, if_neg Bool.false_ne_true,
    any_passedOver_eq_false (by decide), if_neg Bool.false_ne_true,
    hunkStart_eq_none (by decide)]
  cases hcurrent : reader.currentFile with
  | none =>
    dsimp only
    rw [if_pos rfl, ← hcurrent]
  | some file => rfl

theorem isPrefixOf_plus_iff (text : List Char) :
    "+++ ".toList.isPrefixOf ('+' :: text) = true ↔ LooksLikeHeader text := by
  rw [LooksLikeHeader, ← List.isPrefixOf_iff_prefix]
  rfl

/-- An added line in a file. -/
theorem read_plus {text : List Char} (h : ¬LooksLikeHeader text) :
    reader.read ('+' :: text) =
      match reader.currentFile with
      | none => reader
      | some file =>
        { reader with
          added := reader.added ++ [{ file, line := reader.newLineNo, content := text }]
          newLineNo := reader.newLineNo + 1 } := by
  rw [← isPrefixOf_plus_iff] at h
  rw [Reader.read, if_neg h, any_passedOver_eq_false (by decide), if_neg Bool.false_ne_true,
    hunkStart_eq_none (by decide)]
  cases reader.currentFile <;> rfl

/-- The name of a file is read, whatever was read before. -/
theorem read_newHeader (rest : List Char) :
    reader.read ("+++ ".toList ++ rest) =
      { reader with currentFile :=
          if headerName ("+++ ".toList ++ rest) = some "/dev/null".toList then none
          else headerName ("+++ ".toList ++ rest) } := by
  have hprefix : "+++ ".toList.isPrefixOf ("+++ ".toList ++ rest) = true := by
    rw [List.isPrefixOf_iff_prefix]
    exact List.prefix_append _ _
  rw [Reader.read, if_pos hprefix]

/-! ## Reading a hunk header -/

theorem digits_decimal (n : ℕ) {rest : List Char} (h : ∀ c ∈ rest.head?, c.isDigit = false) :
    digits (decimal n ++ rest) = some (decimal n, rest) := by
  have htake : (decimal n ++ rest).takeWhile Char.isDigit = decimal n := by
    rw [List.takeWhile_append_of_pos fun c hc ↦ isDigit_of_mem_decimal hc]
    cases rest with
    | nil => simp
    | cons c others =>
      rw [List.takeWhile_cons_of_neg (by simpa using h c rfl), List.append_nil]
  have hne : decimal n ≠ [] := Nat.toDigits_ne_nil
  rw [digits, htake, if_neg hne, List.drop_left]

/-- What follows a range starts with a blank. -/
theorem digits_rangeText (before count : ℕ) (rest : List Char) (h : rest.head? = some ' ') :
    ∃ behind, digits (rangeText before count ++ rest) =
        some (decimal (if count = 0 then before else before + 1), behind) ∧
      skipLength behind = rest := by
  have hrest : ∀ c ∈ rest.head?, c.isDigit = false := by
    rw [h]
    intro c hc
    cases hc
    rfl
  rw [rangeText, List.append_assoc]
  by_cases hone : count = 1
  · rw [if_pos hone, List.nil_append]
    refine ⟨rest, digits_decimal _ hrest, ?_⟩
    cases rest with
    | nil => cases h
    | cons c others =>
      cases h
      rfl
  · rw [if_neg hone, List.cons_append]
    refine ⟨_, digits_decimal _ fun c hc ↦ by cases hc; rfl, ?_⟩
    rw [skipLength, digits_decimal count hrest]

theorem behindFront_append (front rest : List Char) :
    behindFront front (front ++ rest) = some rest := by
  have hprefix : front.isPrefixOf (front ++ rest) = true := by
    rw [List.isPrefixOf_iff_prefix]
    exact List.prefix_append _ _
  rw [behindFront, if_pos hprefix, List.drop_left]

/-- The position of a hunk in the new file is read from its header. -/
theorem hunkStart_header (hunk : Hunk) (oldBefore newBefore : ℕ) :
    hunkStart (hunk.header oldBefore newBefore) =
      some (if (hunk.edits.filterMap Edit.newLine).length = 0 then
          newBefore + hunk.skipped.length
        else newBefore + hunk.skipped.length + 1) := by
  unfold Hunk.header
  simp only [List.append_assoc]
  obtain ⟨oldBehind, hold, hskipOld⟩ := digits_rangeText (oldBefore + hunk.skipped.length)
    (hunk.edits.filterMap Edit.oldLine).length (" +".toList ++ _) rfl
  obtain ⟨newBehind, hnew, hskipNew⟩ := digits_rangeText (newBefore + hunk.skipped.length)
    (hunk.edits.filterMap Edit.newLine).length (" @@".toList ++ _) rfl
  rw [hunkStart, behindFront_append, Option.bind_eq_bind, Option.bind_some, hold]
  simp only [Option.bind_eq_bind, Option.bind_some]
  rw [hskipOld, behindFront_append, Option.bind_some, hnew]
  simp only [Option.bind_some]
  rw [hskipNew, behindFront_append, Option.bind_some, decimal, Nat.ofDigitChars_ten_toDigits]
  rfl

/-! ## Reading the name of a file -/

theorem endsLine_of_isPrintable {c : Char} (h : IsPrintable c) : endsLine c = false := by
  simp only [endsLine, Bool.or_eq_false_iff, beq_eq_false_iff_ne]
  refine ⟨⟨⟨?_, ?_⟩, ?_⟩, ?_⟩ <;>
  · rintro rfl
    exact absurd h (by decide)

/-- A printable name is read up to the tab that may follow it. -/
theorem nameBeforeTab_printable {name tab : List Char} (hne : name ≠ [])
    (hname : ∀ c ∈ name, IsPrintable c) (htab : tab = [] ∨ tab = ['\t']) :
    nameBeforeTab (name ++ tab) = some name := by
  cases name with
  | nil => exact absurd rfl hne
  | cons c rest =>
    have hends : (c :: rest ++ tab).any endsLine = false := by
      rw [List.any_append, Bool.or_eq_false_iff]
      constructor
      · rw [List.any_eq_false]
        intro d hd
        rw [endsLine_of_isPrintable (hname d hd)]
        exact Bool.false_ne_true
      · rcases htab with rfl | rfl <;> decide
    have htake : (rest ++ tab).takeWhile (fun c ↦ c != '\t') = rest := by
      rw [List.takeWhile_append_of_pos]
      · rcases htab with rfl | rfl <;> simp
      · intro d hd
        rw [bne_iff_ne]
        rintro rfl
        exact absurd (hname _ (List.mem_cons_of_mem c hd)) (by decide)
    rw [List.cons_append, nameBeforeTab, ← List.cons_append, hends, if_neg Bool.false_ne_true,
      htake]

/-- A name is read behind the blank that stands in front of it. -/
theorem headerName_printable {c : Char} {rest tab : List Char}
    (hc : isWhitespace c = false) :
    headerName ("+++ ".toList ++ (c :: rest ++ tab)) = nameBehindSide (c :: rest ++ tab) := by
  have hblanks : (' ' :: (c :: rest ++ tab)).takeWhile isWhitespace = [' '] := by
    rw [List.takeWhile_cons_of_pos (by decide), List.cons_append,
      List.takeWhile_cons_of_neg (by simp [hc])]
  have hdrop : ("+++ ".toList ++ (c :: rest ++ tab)).drop 3 = ' ' :: (c :: rest ++ tab) := rfl
  rw [headerName, hdrop, hblanks]
  simp

/-- What the reader takes for a path. -/
def readName (path : TreePath) : List Char :=
  if IsPlain path.text then path.text else quotePath ('b' :: '/' :: path.text)

theorem isPlain_side_iff (path : List Char) : IsPlain ('b' :: '/' :: path) ↔ IsPlain path := by
  have hside : mustQuote 'b' = false ∧ mustQuote '/' = false := by decide
  simp only [IsPlain, List.forall_mem_cons, hside, true_and]

theorem nameText_tab (name : List Char) :
    ∃ tab, nameText name = quotePath name ++ tab ∧ (tab = [] ∨ tab = ['\t']) := by
  refine ⟨_, rfl, ?_⟩
  split
  · exact .inr rfl
  · exact .inl rfl

theorem headerName_nameText (path : TreePath) :
    headerName ("+++ ".toList ++ nameText ('b' :: '/' :: path.text)) = some (readName path) := by
  obtain ⟨tab, htext, htab⟩ := nameText_tab ('b' :: '/' :: path.text)
  rw [htext, readName]
  split
  next hplain =>
    rw [quotePath_of_isPlain ((isPlain_side_iff _).mpr hplain), headerName_printable (by decide)]
    have hname : nameBeforeTab (path.text ++ tab) = some path.text := by
      apply nameBeforeTab_printable path.nonempty _ htab
      intro c hc
      exact isPrintable_of_mustQuote (hplain c hc)
    simp [nameBehindSide, hname]
  next hplain =>
    have hquoted := quotePath_of_not_isPlain ((isPlain_side_iff path.text).not.mpr hplain)
    have hname : nameBeforeTab (quotePath ('b' :: '/' :: path.text) ++ tab) =
        some (quotePath ('b' :: '/' :: path.text)) := by
      apply nameBeforeTab_printable _ (isPrintable_quotePath _) htab
      rw [hquoted]
      exact List.cons_ne_nil _ _
    rw [hquoted] at hname ⊢
    rw [headerName_printable (by decide), List.cons_append, nameBehindSide]
    · exact hname
    · simp
    · simp

/-- Reading the name of the new file. -/
theorem read_names (names : FileNames) :
    reader.read names.newHeader = { reader with currentFile := names.newPath.map readName } := by
  have hpath : ∀ path : TreePath,
      reader.read ("+++ ".toList ++ nameText ('b' :: '/' :: path.text)) =
        { reader with currentFile := some (readName path) } := by
    intro path
    rw [read_newHeader, headerName_nameText, if_neg]
    intro hnull
    have hhead := congrArg List.head? (Option.some.inj hnull)
    rw [readName] at hhead
    split at hhead
    · exact path.relative hhead
    next hplain =>
      rw [quotePath_of_not_isPlain ((isPlain_side_iff path.text).not.mpr hplain)] at hhead
      have hsame : '"' = '/' := Option.some.inj hhead
      exact absurd hsame (by decide)
  cases names with
  | created path => exact hpath path
  | changed old new => exact hpath new
  | deleted path =>
    have hnull : headerName ("+++ ".toList ++ diskNull) = some "/dev/null".toList := by decide
    rw [FileNames.newHeader, read_newHeader, hnull, if_pos rfl]
    rfl

/-! ## Reading the hunks -/

theorem addedFrom_append (number : ℕ) (front back : List (Line × Bool)) :
    addedFrom number (front ++ back) =
      addedFrom number front ++ addedFrom (number + front.length) back := by
  rw [addedFrom, List.zipIdx_append, List.filterMap_append, addedFrom, addedFrom]

theorem addedFrom_kept (number : ℕ) (lines : List Line) :
    addedFrom number (lines.map (·, false)) = [] := by
  rw [addedFrom, List.filterMap_eq_nil_iff]
  rintro ⟨⟨line, isAdded⟩, n⟩ hmem
  have hline := List.fst_mem_of_mem_zipIdx hmem
  obtain ⟨other, -, hother⟩ := List.mem_map.mp hline
  cases hother
  rfl

/-- What the reader makes of added lines in the current file. -/
def produced (current : Option (List Char)) (added : List (ℕ × Line)) : List DiffLine :=
  match current with
  | none => []
  | some file => diffLinesIn file added

@[simp] theorem produced_nil (current : Option (List Char)) : produced current [] = [] := by
  cases current <;> rfl

theorem produced_append (current : Option (List Char)) (front back : List (ℕ × Line)) :
    produced current (front ++ back) = produced current front ++ produced current back := by
  cases current with
  | none => rfl
  | some file => exact List.map_append

/-- The reader behind some lines of the current file. -/
structure Behind (before after : Reader) (lines : List (ℕ × Line)) (count : ℕ) : Prop where
  added : after.added = before.added ++ produced before.currentFile lines
  currentFile : after.currentFile = before.currentFile
  newLineNo : before.currentFile ≠ none → after.newLineNo = before.newLineNo + count

theorem Behind.refl : Behind reader reader [] 0 :=
  ⟨by rw [produced_nil, List.append_nil], rfl, fun _ ↦ rfl⟩

/-- The text of an added line does not look like a header. -/
def EditIsReadable (edit : Edit) : Prop :=
  edit.change = .add → ¬LooksLikeHeader edit.line.text

/-- What a shown line does. -/
theorem behind_edit {edit : Edit} (h : EditIsReadable edit) :
    Behind reader (edit.lines.foldl Reader.read reader)
      (addedFrom reader.newLineNo edit.newLine.toList) edit.newLine.toList.length := by
  have hmarker : ∀ other : Reader,
      (if edit.unterminated then [noNewline] else []).foldl Reader.read other = other := by
    intro other
    have htext : noNewline = '\\' :: " No newline at end of file".toList := rfl
    split
    · rw [List.foldl_cons, htext, read_of_ignored other (by decide) (by decide) (by decide)]
      rfl
    · rfl
  rw [Edit.lines, List.foldl_cons, hmarker, Edit.newLine]
  cases hchange : edit.change with
  | keep =>
    rw [Change.sign, read_blank]
    refine ⟨by simp [addedFrom], rfl, fun hcurrent ↦ if_neg hcurrent⟩
  | remove =>
    rw [Change.sign, read_of_ignored reader (by decide) (by decide) (by decide)]
    exact Behind.refl reader
  | add =>
    rw [Change.sign, read_plus reader (h hchange)]
    cases hcurrent : reader.currentFile with
    | none => exact ⟨by simp [hcurrent, produced], rfl, fun hsome ↦ absurd hcurrent hsome⟩
    | some file =>
      exact ⟨by simp [hcurrent, produced, diffLinesIn, addedFrom], hcurrent.symm, fun _ ↦ rfl⟩

theorem Behind.trans {first second third : Reader} {front back : List (ℕ × Line)} {n m : ℕ}
    (h : Behind first second front n) (h' : Behind second third back m) :
    Behind first third (front ++ back) (n + m) where
  added := by
    rw [h'.added, h.added, h.currentFile, produced_append, List.append_assoc]
  currentFile := h'.currentFile.trans h.currentFile
  newLineNo := by
    intro hcurrent
    rw [h'.newLineNo (h.currentFile ▸ hcurrent), h.newLineNo hcurrent, Nat.add_assoc]

/-- Where there is no current file, the numbers do not matter. -/
theorem Behind.renumber {before after : Reader} {lines : List (ℕ × Line)} {n : ℕ}
    (h : Behind before after lines n) (other : List (ℕ × Line))
    (hlines : before.currentFile ≠ none → other = lines) :
    Behind before after other n := by
  refine ⟨?_, h.currentFile, h.newLineNo⟩
  rw [h.added]
  cases hcurrent : before.currentFile with
  | none => rfl
  | some file => rw [hlines (by simp [hcurrent])]

theorem behind_edits {edits : List Edit} (h : ∀ edit ∈ edits, EditIsReadable edit) :
    Behind reader ((edits.flatMap Edit.lines).foldl Reader.read reader)
      (addedFrom reader.newLineNo (edits.filterMap Edit.newLine))
      (edits.filterMap Edit.newLine).length := by
  induction edits generalizing reader with
  | nil => exact Behind.refl reader
  | cons edit rest ih =>
    have hfirst := behind_edit reader (h edit List.mem_cons_self)
    have hrest := ih (edit.lines.foldl Reader.read reader)
      fun other hother ↦ h other (List.mem_cons_of_mem edit hother)
    have hboth := (hfirst.trans hrest).renumber
      (addedFrom reader.newLineNo (edit.newLine.toList ++ rest.filterMap Edit.newLine))
    have hsplit : (edit :: rest).filterMap Edit.newLine =
        edit.newLine.toList ++ rest.filterMap Edit.newLine := by
      cases hnew : edit.newLine <;> simp [hnew]
    rw [List.flatMap_cons, List.foldl_append, hsplit, List.length_append]
    apply hboth
    intro hcurrent
    rw [addedFrom_append, hfirst.newLineNo hcurrent]

/-- What the hunks of a file do. -/
theorem added_hunks {hunks : List Hunk} (oldBefore newBefore : ℕ)
    (h : ∀ hunk ∈ hunks, ∀ edit ∈ hunk.edits, EditIsReadable edit) :
    ((hunkLines oldBefore newBefore hunks).foldl Reader.read reader).added =
      reader.added ++ produced reader.currentFile
        (addedFrom (newBefore + 1) (hunks.flatMap Hunk.newLines)) := by
  induction hunks generalizing reader oldBefore newBefore with
  | nil => simp [hunkLines, addedFrom]
  | cons hunk rest ih =>
    have hheader : reader.read (hunk.header oldBefore newBefore) =
        { reader with newLineNo :=
            if (hunk.edits.filterMap Edit.newLine).length = 0 then
              newBefore + hunk.skipped.length
            else newBefore + hunk.skipped.length + 1 } := by
      have hstart := hunkStart_header hunk oldBefore newBefore
      unfold Hunk.header at hstart ⊢
      simp only [List.append_assoc] at hstart ⊢
      rw [Reader.read, hstart]
      rfl
    have hedits := behind_edits (reader.read (hunk.header oldBefore newBefore))
      (h hunk List.mem_cons_self)
    have hnumber : addedFrom (if (hunk.edits.filterMap Edit.newLine).length = 0 then
          newBefore + hunk.skipped.length else newBefore + hunk.skipped.length + 1)
        (hunk.edits.filterMap Edit.newLine) =
        addedFrom (newBefore + hunk.skipped.length + 1) (hunk.edits.filterMap Edit.newLine) := by
      split
      next hempty =>
        rw [List.eq_nil_of_length_eq_zero hempty]
        rfl
      · rfl
    have hhunk : addedFrom (newBefore + 1) hunk.newLines =
        addedFrom (newBefore + hunk.skipped.length + 1) (hunk.edits.filterMap Edit.newLine) := by
      rw [Hunk.newLines, addedFrom_append, addedFrom_kept, List.nil_append, List.length_map]
      congr 1
      omega
    have hbehind : newBefore + 1 + hunk.newLines.length = newBefore + hunk.newLines.length + 1 := by
      omega
    rw [hunkLines, List.foldl_cons, List.foldl_append,
      ih _ _ _ fun other hother ↦ h other (List.mem_cons_of_mem hunk hother), hedits.added,
      hedits.currentFile, hheader, List.append_assoc, ← produced_append, List.flatMap_cons,
      addedFrom_append, hbehind, hhunk]
    dsimp only
    rw [hnumber]

/-! ## Reading the files -/

theorem readable_edits {file : FileDiff}
    (h : ∀ added ∈ file.added, ¬LooksLikeHeader added.2.text) :
    ∀ hunk ∈ file.hunks, ∀ edit ∈ hunk.edits, EditIsReadable edit := by
  intro hunk hhunk edit hedit hchange
  have hline : (edit.line, true) ∈ file.newFile := by
    apply List.mem_append_left
    apply List.mem_flatMap.mpr
    refine ⟨hunk, hhunk, List.mem_append_right _ ?_⟩
    rw [List.mem_filterMap]
    exact ⟨edit, hedit, by rw [Edit.newLine, hchange]⟩
  rw [← List.zipIdx_map_fst 1 file.newFile] at hline
  obtain ⟨⟨numbered, index⟩, hindex, rfl⟩ := List.mem_map.mp hline
  apply h (index, edit.line)
  rw [FileDiff.added, addedFrom, List.mem_filterMap]
  exact ⟨_, hindex, rfl⟩

theorem read_extended (headers : List ExtendedHeader) :
    (headers.map (·.text)).foldl Reader.read reader = reader := by
  induction headers with
  | nil => rfl
  | cons header rest ih =>
    obtain ⟨c, hc, hletter⟩ := header.letter
    obtain ⟨others, htext⟩ : ∃ others, header.text = c :: others := by
      cases htext : header.text with
      | nil =>
        rw [htext] at hc
        cases hc
      | cons first others =>
        rw [htext] at hc
        cases hc
        exact ⟨others, rfl⟩
    have hne : ∀ d : Char, d.isAlpha = false → c ≠ d := by
      rintro d hd rfl
      rw [hletter] at hd
      cases hd
    rw [List.map_cons, List.foldl_cons, htext,
      read_of_ignored reader (hne '+' rfl) (hne ' ' rfl) (hne '@' rfl).symm, ih]

/-- What the lines of a file do, where no added line looks like a header. -/
theorem added_file {file : FileDiff}
    (h : ∀ added ∈ file.added, ¬LooksLikeHeader added.2.text) :
    (file.lines.foldl Reader.read reader).added =
      reader.added ++ produced (file.names.newPath.map readName) file.added := by
  have hannounced : reader.read ("diff --git ".toList ++ file.names.announced) = reader := by
    have hpassed : "diff --git ".toList ++ file.names.announced =
        'd' :: ("iff --git ".toList ++ file.names.announced) := rfl
    rw [hpassed, read_of_ignored reader (by decide) (by decide) (by decide)]
  have hold : reader.read file.names.oldHeader = reader := by
    have hminus : ∃ rest, file.names.oldHeader = '-' :: rest := by
      cases file.names <;> exact ⟨_, rfl⟩
    obtain ⟨rest, hrest⟩ := hminus
    rw [hrest, read_of_ignored reader (by decide) (by decide) (by decide)]
  have hadded : file.added = addedFrom 1 (file.hunks.flatMap Hunk.newLines) := by
    rw [FileDiff.added, FileDiff.newFile, addedFrom_append, addedFrom_kept, List.append_nil]
  rw [FileDiff.lines, List.foldl_cons, hannounced, List.foldl_append, read_extended]
  split
  next hempty =>
    rw [List.isEmpty_iff] at hempty
    rw [hadded, hempty, List.foldl_nil, List.flatMap_nil]
    simp [addedFrom]
  · rw [List.foldl_cons, List.foldl_cons, hold, read_names,
      added_hunks _ 0 0 (readable_edits h), hadded]

theorem added_files {files : List FileDiff}
    (h : ∀ file ∈ files, ∀ added ∈ file.added, ¬LooksLikeHeader added.2.text) :
    ((files.flatMap FileDiff.lines).foldl Reader.read reader).added =
      reader.added ++
        files.flatMap fun file ↦ produced (file.names.newPath.map readName) file.added := by
  induction files generalizing reader with
  | nil => simp
  | cons file rest ih =>
    rw [List.flatMap_cons, List.foldl_append,
      ih _ fun other hother ↦ h other (List.mem_cons_of_mem file hother),
      added_file reader (h file List.mem_cons_self), List.flatMap_cons, List.append_assoc]

/-! ## Added lines that look like headers -/

/-- The line has a plus in front and is not taken for the name of a file. -/
def isCounted (line : List Char) : Bool :=
  line.head? == some '+' && !"+++ ".toList.isPrefixOf line

theorem length_read_le (line : List Char) :
    (reader.read line).added.length ≤
      reader.added.length + if isCounted line then 1 else 0 := by
  unfold Reader.read
  split
  · exact Nat.le_add_right _ _
  next hname =>
    split
    · exact Nat.le_add_right _ _
    · split
      · exact Nat.le_add_right _ _
      · split
        · exact Nat.le_add_right _ _
        · split
          · rw [isCounted, Bool.eq_false_iff.mpr hname]
            simp
          · exact Nat.le_add_right _ _
          · exact Nat.le_add_right _ _

/-- The reader finds at most as many added lines as there are such lines. -/
theorem length_foldl_read_le (lines : List (List Char)) :
    (lines.foldl Reader.read reader).added.length ≤
      reader.added.length + lines.countP isCounted := by
  induction lines generalizing reader with
  | nil => exact le_rfl
  | cons line rest ih =>
    rw [List.foldl_cons, List.countP_cons]
    have hline := length_read_le reader line
    have hrest := ih (reader.read line)
    omega

/-- An added line that the reader finds. -/
def isFound (added : ℕ × Line) : Bool := !decide (LooksLikeHeader added.2.text)

theorem countP_addedFrom (number : ℕ) (lines : List (Line × Bool)) :
    (addedFrom number lines).countP isFound =
      lines.countP fun line ↦ line.2 && !decide (LooksLikeHeader line.1.text) := by
  induction lines generalizing number with
  | nil => rfl
  | cons line rest ih =>
    obtain ⟨content, isAdded⟩ := line
    have hcons : addedFrom number ((content, isAdded) :: rest) =
        (if isAdded then [(number, content)] else []) ++ addedFrom (number + 1) rest := by
      rw [addedFrom, List.zipIdx_cons, List.filterMap_cons]
      cases isAdded <;> rfl
    rw [hcons, List.countP_append, ih, List.countP_cons, Nat.add_comm]
    congr 1
    cases isAdded <;> simp [isFound]

theorem countP_edit (edit : Edit) :
    edit.lines.countP isCounted =
      edit.newLine.toList.countP fun line ↦ line.2 && !decide (LooksLikeHeader line.1.text) := by
  have hmarker : (if edit.unterminated then [noNewline] else []).countP isCounted = 0 := by
    split <;> rfl
  rw [Edit.lines, List.countP_cons, hmarker, Nat.zero_add, Edit.newLine]
  cases edit.change with
  | keep => rfl
  | remove => rfl
  | add =>
    have hlooks : decide (LooksLikeHeader edit.line.text) =
        "+++ ".toList.isPrefixOf ('+' :: edit.line.text) := by
      rw [Bool.eq_iff_iff, decide_eq_true_iff, isPrefixOf_plus_iff]
    have hcounted : isCounted ('+' :: edit.line.text) =
        !decide (LooksLikeHeader edit.line.text) := by
      rw [hlooks, isCounted]
      rfl
    rw [Change.sign, hcounted]
    simp

theorem countP_hunkLines (oldBefore newBefore : ℕ) (hunks : List Hunk) :
    (hunkLines oldBefore newBefore hunks).countP isCounted =
      (hunks.flatMap Hunk.newLines).countP fun line ↦
        line.2 && !decide (LooksLikeHeader line.1.text) := by
  induction hunks generalizing oldBefore newBefore with
  | nil => rfl
  | cons hunk rest ih =>
    have hheader : isCounted (hunk.header oldBefore newBefore) = false := rfl
    have hedits : (hunk.edits.flatMap Edit.lines).countP isCounted =
        (hunk.edits.filterMap Edit.newLine).countP fun line ↦
          line.2 && !decide (LooksLikeHeader line.1.text) := by
      induction hunk.edits with
      | nil => rfl
      | cons edit others ihEdits =>
        have hsplit : (edit :: others).filterMap Edit.newLine =
            edit.newLine.toList ++ others.filterMap Edit.newLine := by
          cases hnew : edit.newLine <;> simp [hnew]
        rw [List.flatMap_cons, List.countP_append, countP_edit, ihEdits, hsplit,
          List.countP_append]
    have hskipped : (hunk.skipped.map (·, false)).countP (fun line ↦
        line.2 && !decide (LooksLikeHeader line.1.text)) = 0 := by
      rw [List.countP_map, List.countP_eq_zero]
      intro line _
      simp
    rw [hunkLines, List.countP_cons, hheader, List.countP_append, hedits, ih, List.flatMap_cons,
      List.countP_append, Hunk.newLines, List.countP_append, hskipped]
    simp

theorem countP_file (file : FileDiff) :
    file.lines.countP isCounted = file.added.countP isFound := by
  have hannounced : isCounted ("diff --git ".toList ++ file.names.announced) = false := rfl
  have hextended : (file.extended.map (·.text)).countP isCounted = 0 := by
    rw [List.countP_eq_zero]
    intro line hline hcounted
    obtain ⟨header, -, rfl⟩ := List.mem_map.mp hline
    obtain ⟨c, hc, hletter⟩ := header.letter
    rw [isCounted, Option.mem_def.mp hc, Bool.and_eq_true, beq_iff_eq] at hcounted
    cases Option.some.inj hcounted.1
    cases hletter
  have hold : isCounted file.names.oldHeader = false := by
    cases file.names <;> rfl
  have hnew : isCounted file.names.newHeader = false := by
    cases file.names <;> rfl
  have hadded : file.added = addedFrom 1 (file.hunks.flatMap Hunk.newLines) := by
    rw [FileDiff.added, FileDiff.newFile, addedFrom_append, addedFrom_kept, List.append_nil]
  rw [hadded, countP_addedFrom, FileDiff.lines, List.countP_cons, hannounced,
    List.countP_append, hextended]
  split
  next hempty =>
    rw [List.isEmpty_iff] at hempty
    rw [hempty]
    rfl
  · rw [List.countP_cons, List.countP_cons, hold, hnew, countP_hunkLines]
    simp

/-! ## The whole diff -/

theorem added_of_deleted {file : FileDiff} (h : file.names.newPath = none) : file.added = [] := by
  cases hnames : file.names with
  | created path =>
    rw [hnames] at h
    cases h
  | changed old new =>
    rw [hnames] at h
    cases h
  | deleted path =>
    obtain ⟨hhunks, hrest⟩ := file.deleted path hnames
    rw [FileDiff.added, FileDiff.newFile, hhunks, hrest]
    rfl

theorem length_diffLinesIn (file : List Char) (added : List (ℕ × Line)) :
    (diffLinesIn file added).length = added.length := List.length_map _

theorem addedLines_eq (files : List FileDiff) :
    addedLines files =
      files.flatMap fun file ↦ produced (file.names.newPath.map (·.text)) file.added := by
  rw [addedLines]
  congr 1
  funext file
  cases file.names.newPath <;> rfl

theorem length_produced (file : FileDiff) (name : TreePath → List Char) :
    (produced (file.names.newPath.map name) file.added).length = file.added.length := by
  cases hpath : file.names.newPath with
  | none => rw [added_of_deleted hpath, produced_nil, List.length_nil, List.length_nil]
  | some path => exact length_diffLinesIn _ _

/-- Where the whole output is right, no added line looks like a header. -/
theorem not_looksLikeHeader_of_eq {files : List FileDiff}
    (h : parseDiffAddedLines (diffText files) = addedLines files) :
    ∀ file ∈ files, ∀ added ∈ file.added, ¬LooksLikeHeader added.2.text := by
  have hexpected : (addedLines files).length = (files.flatMap FileDiff.added).length := by
    rw [addedLines_eq, List.length_flatMap, List.length_flatMap]
    congr 2
    funext file
    exact length_produced file _
  have hfound : (parseDiffAddedLines (diffText files)).length ≤
      (files.flatMap FileDiff.added).countP isFound := by
    have hread := length_foldl_read_le .start (files.flatMap FileDiff.lines)
    have hcount : (files.flatMap FileDiff.lines).countP isCounted =
        (files.flatMap FileDiff.added).countP isFound := by
      rw [List.countP_flatMap, List.countP_flatMap]
      congr 2
      funext file
      exact countP_file file
    rw [hcount] at hread
    rw [parseDiffAddedLines_diffText, read_nil]
    calc _ ≤ Reader.start.added.length + (files.flatMap FileDiff.added).countP isFound := hread
      _ = _ := Nat.zero_add _
  rw [h, hexpected] at hfound
  have hall := List.countP_eq_length.mp (le_antisymm List.countP_le_length hfound)
  intro file hfile added hadded hlooks
  have hone := hall added (List.mem_flatMap.mpr ⟨file, hfile, hadded⟩)
  rw [isFound, decide_eq_true hlooks] at hone
  cases hone

/-- Two concatenations of parts of the same lengths agree exactly when the parts do. -/
theorem flatMap_eq_iff_of_length {α β : Type} {parts : List α} {f g : α → List β}
    (h : ∀ part ∈ parts, (f part).length = (g part).length) :
    parts.flatMap f = parts.flatMap g ↔ ∀ part ∈ parts, f part = g part := by
  induction parts with
  | nil => simp
  | cons part rest ih =>
    rw [List.flatMap_cons, List.flatMap_cons, List.forall_mem_cons,
      ← ih fun other hother ↦ h other (List.mem_cons_of_mem part hother)]
    constructor
    · intro happend
      exact List.append_inj happend (h part List.mem_cons_self)
    · rintro ⟨hpart, hrest⟩
      rw [hpart, hrest]

theorem readName_eq_iff (path : TreePath) : readName path = path.text ↔ IsPlain path.text := by
  rw [readName]
  split
  next hplain => exact ⟨fun _ ↦ hplain, fun _ ↦ rfl⟩
  next hplain =>
    constructor
    · intro hsame
      have hlong := length_quotePath ((isPlain_side_iff path.text).not.mpr hplain)
      rw [hsame] at hlong
      simp only [List.length_cons] at hlong
      omega
    · intro hyes
      exact absurd hyes hplain

/-- What the reader makes of a file is right exactly when it reads the right name, or needs none. -/
theorem produced_eq_iff (file : FileDiff) :
    produced (file.names.newPath.map readName) file.added =
        produced (file.names.newPath.map (·.text)) file.added ↔
      (file.added ≠ [] → ∀ path, file.names.newPath = some path → IsPlain path.text) := by
  cases hadded : file.added with
  | nil => simp
  | cons first rest =>
    cases hpath : file.names.newPath with
    | none =>
      rw [added_of_deleted hpath] at hadded
      cases hadded
    | some path =>
      constructor
      · intro hsame _ other hother
        cases hother
        have hfirst := (List.cons.inj hsame).1
        exact (readName_eq_iff path).mp (congrArg DiffLine.file hfirst)
      · intro hplain
        have hname := (readName_eq_iff path).mpr (hplain (List.cons_ne_nil _ _) path rfl)
        rw [Option.map_some, Option.map_some, hname]

/-- For every diff in git's format: the reader returns the added lines with the paths of the new
files and the line numbers in them exactly when no added line looks like the name of a file and
every file with added lines has a path that git writes as it is. -/
theorem parseDiffAddedLines_exact_iff (files : List FileDiff) :
    parseDiffAddedLines (diffText files) = addedLines files ↔
      ∀ file ∈ files, FileIsReadable file := by
  have hparts (hlines : ∀ file ∈ files, ∀ added ∈ file.added, ¬LooksLikeHeader added.2.text) :
      parseDiffAddedLines (diffText files) = addedLines files ↔
        ∀ file ∈ files,
          file.added ≠ [] → ∀ path, file.names.newPath = some path → IsPlain path.text := by
    rw [parseDiffAddedLines_diffText, read_nil, added_files .start hlines, addedLines_eq]
    have hstart : Reader.start.added = [] := rfl
    rw [hstart, List.nil_append, flatMap_eq_iff_of_length]
    · simp only [produced_eq_iff]
    · intro file _
      rw [length_produced file, length_produced file]
  constructor
  · intro h file hfile
    have hlines := not_looksLikeHeader_of_eq h
    exact ⟨hlines file hfile, (hparts hlines).mp h file hfile⟩
  · intro h
    exact (hparts fun file hfile ↦ (h file hfile).lines).mpr fun file hfile ↦ (h file hfile).path

/-- A file in which a line `++ counter;` is added in front of another line. -/
def incrementAdded : FileDiff where
  names := .changed { text := "src/a.ts".toList, nonempty := by decide, relative := by decide }
    { text := "src/a.ts".toList, nonempty := by decide, relative := by decide }
  extended := []
  hunks :=
    [{ skipped := []
       heading := none
       edits :=
        [{ change := .add
           line := { text := "++ counter;".toList, single := by decide }
           unterminated := false },
         { change := .add
           line := { text := "state = done;".toList, single := by decide }
           unterminated := false }] }]
  rest := []
  created := by
    intro path hpath
    cases hpath
  deleted := by
    intro path hpath
    cases hpath

/-- The first line is lost, and the second one is found in a file of another name. -/
theorem not_parseDiffAddedLines_exact :
    ¬∀ files, parseDiffAddedLines (diffText files) = addedLines files := by
  intro h
  have hfound : parseDiffAddedLines (diffText [incrementAdded]) =
      [{ file := "counter;".toList, line := 1, content := "state = done;".toList }] := by
    decide +kernel
  rw [h [incrementAdded]] at hfound
  exact absurd hfound (by decide +kernel)

end Flockctl.StateMachines
