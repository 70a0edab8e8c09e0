import Flockctl.FileEdits.InlineDiff
import Flockctl.StateMachines.AddedLines

/-!
# What the review pane shows of a journal

The decoder finds a file for each entry and gives all lines of its body back, unless a removed line
begins like the header of an old file, or an added line like that of a new one: such a line is taken
for a header and not shown. A path is shown as it is unless it seems to hold a second one.
-/

namespace Flockctl.FileEdits

open Collections

/-! ## Names -/

theorem behindFront_eq_some_iff {front text rest : List Char} :
    StateMachines.behindFront front text = some rest ↔ text = front ++ rest := by
  unfold StateMachines.behindFront
  constructor
  · intro h
    split at h
    · rename_i hprefix
      obtain ⟨behind, rfl⟩ := List.isPrefixOf_iff_prefix.mp hprefix
      rw [List.drop_left] at h
      rw [Option.some.inj h]
    · cases h
  · rintro rfl
    rw [if_pos (List.isPrefixOf_iff_prefix.mpr ⟨rest, rfl⟩), List.drop_left]

/-- Two names with a blank, a `b` and a slash between them. -/
def IsNames (text old new : List Char) : Prop :=
  text = old ++ " b/".toList ++ new ∧ old ≠ [] ∧ new ≠ []

theorem isNames_cons {c : Char} {rest old new : List Char} (h : IsNames rest old new) :
    IsNames (c :: rest) (c :: old) new := by
  obtain ⟨htext, -, hnew⟩ := h
  exact ⟨by rw [htext]; rfl, by simp, hnew⟩

theorem isNames_of_greedyNames {text old new : List Char}
    (h : greedyNames text = some (old, new)) : IsNames text old new := by
  induction text generalizing old new with
  | nil => cases h
  | cons c rest ih =>
    rw [greedyNames] at h
    split at h
    · rename_i old' new' hrest
      cases h
      exact isNames_cons (ih hrest)
    · split at h
      · rename_i d new' hbehind
        cases h
        have hrest := behindFront_eq_some_iff.mp hbehind
        exact ⟨by rw [hrest]; rfl, by simp, by simp⟩
      · cases h

/-- The first name is as long as it can be. -/
theorem greedyNames_longest {text old new : List Char} (h : IsNames text old new) :
    ∃ old' new', greedyNames text = some (old', new') ∧ old.length ≤ old'.length := by
  induction text generalizing old new with
  | nil =>
    obtain ⟨htext, hold, -⟩ := h
    cases old with
    | nil => exact absurd rfl hold
    | cons d old => cases htext
  | cons c rest ih =>
    obtain ⟨htext, hold, hnew⟩ := h
    cases old with
    | nil => exact absurd rfl hold
    | cons d old =>
      obtain ⟨rfl, hrest⟩ := List.cons.inj htext
      rw [greedyNames]
      by_cases hnil : old = []
      · subst hnil
        cases hgreedy : greedyNames rest with
        | some names => exact ⟨_, _, rfl, by simp⟩
        | none =>
          obtain ⟨e, new', rfl⟩ := List.exists_cons_of_ne_nil hnew
          have hrest' : rest = " b/".toList ++ e :: new' := hrest
          rw [behindFront_eq_some_iff.mpr hrest']
          exact ⟨_, _, rfl, by simp⟩
      · obtain ⟨old', new', hgreedy, hle⟩ := ih ⟨hrest, hnil, hnew⟩
        rw [hgreedy]
        exact ⟨_, _, rfl, Nat.succ_le_succ hle⟩

/-- The path holds a blank, a `b` and a slash with something behind them. -/
def HoldsName (path : List Char) : Prop :=
  ∃ front behind, path = front ++ " b/".toList ++ behind ∧ behind ≠ []

/-- The two names of a path are found unless it seems to hold the second one itself. -/
theorem greedyNames_path_iff (path : List Char) :
    greedyNames (path ++ " b/".toList ++ path) = some (path, path) ↔
      path ≠ [] ∧ ¬HoldsName path := by
  constructor
  · intro h
    refine ⟨(isNames_of_greedyNames h).2.1, ?_⟩
    rintro ⟨front, behind, hpath, hbehind⟩
    have hlater : IsNames (path ++ " b/".toList ++ path) (path ++ " b/".toList ++ front)
        behind := by
      refine ⟨?_, by simp, hbehind⟩
      conv_lhs => rw [hpath]
      rw [hpath]
      simp only [List.append_assoc]
    obtain ⟨old, new, hgreedy, hle⟩ := greedyNames_longest hlater
    rw [h] at hgreedy
    cases hgreedy
    simp only [List.length_append] at hle
    have hlength : (" b/".toList).length = 3 := by decide
    omega
  · rintro ⟨hne, hholds⟩
    have hnames : IsNames (path ++ " b/".toList ++ path) path path := ⟨rfl, hne, hne⟩
    obtain ⟨old, new, hgreedy, hle⟩ := greedyNames_longest hnames
    obtain ⟨htext, -, hnew⟩ := isNames_of_greedyNames hgreedy
    rw [hgreedy]
    rw [List.append_assoc, List.append_assoc] at htext
    obtain ⟨more, rfl⟩ : ∃ more, old = path ++ more := by
      rcases List.append_eq_append_iff.mp htext with ⟨more, hold, -⟩ | ⟨more, hpath, -⟩
      · exact ⟨more, hold⟩
      · refine ⟨[], ?_⟩
        have hnil : more = [] := by
          rw [hpath, List.length_append] at hle
          exact List.eq_nil_of_length_eq_zero (by omega)
        rw [hpath, hnil, List.append_nil, List.append_nil]
    rw [List.append_assoc, List.append_cancel_left_eq] at htext
    have hbetween : " b/".toList = [' ', 'b', '/'] := by decide
    rw [hbetween] at htext
    match more, htext with
    | [], htext =>
      rw [List.nil_append, List.append_cancel_left_eq] at htext
      rw [List.append_nil, ← htext]
    | [_], htext => simp at htext
    | [_, _], htext => simp at htext
    | _ :: _ :: _ :: front, htext =>
      simp only [List.cons_append, List.nil_append, List.cons.injEq] at htext
      exact absurd ⟨front, new, by rw [hbetween, htext.2.2.2, List.append_assoc]; rfl, hnew⟩ hholds

/-- The names that the header of a file gives for a path, before the other two lines are read. -/
theorem gitNames_path (path : List Char) :
    gitNames ("diff --git a/".toList ++ path ++ " b/".toList ++ path) =
      if path.any StateMachines.endsLine then none
      else greedyNames (path ++ " b/".toList ++ path) := by
  have hbehind : StateMachines.behindFront "diff --git a/".toList
      ("diff --git a/".toList ++ path ++ " b/".toList ++ path) =
        some (path ++ " b/".toList ++ path) := by
    rw [behindFront_eq_some_iff]
    simp only [List.append_assoc]
  have hbetween : (" b/".toList).any StateMachines.endsLine = false := by decide
  have hany : (path ++ " b/".toList ++ path).any StateMachines.endsLine =
      path.any StateMachines.endsLine := by
    rw [List.any_append, List.any_append, hbetween, Bool.or_false, Bool.or_self]
  simp only [gitNames, hbehind, hany]

theorem headerPath_old (path : List Char) :
    headerPath 'a' ("--- a/".toList ++ path) = withoutQuotes path := by
  have hfront : "--- a/".toList = ['-', '-', '-', ' ', 'a', '/'] := by decide
  simp [headerPath, hfront]

theorem headerPath_new (path : List Char) :
    headerPath 'b' ("+++ b/".toList ++ path) = withoutQuotes path := by
  have hfront : "+++ b/".toList = ['+', '+', '+', ' ', 'b', '/'] := by decide
  simp [headerPath, hfront]

/-- Nothing is taken off a text without quotes at its ends. -/
theorem withoutQuotes_eq_self_iff (path : List Char) :
    withoutQuotes path = path ↔ path.head? ≠ some '"' ∧ path.getLast? ≠ some '"' := by
  unfold withoutQuotes
  cases path with
  | nil => simp
  | cons c rest =>
    by_cases hhead : c = '"'
    · subst hhead
      simp only [List.head?_cons, if_true, List.tail_cons, ne_eq, not_true_eq_false, false_and,
        iff_false]
      intro heq
      have hlength := congrArg List.length heq
      split at hlength
      · simp at hlength
      · simp at hlength
    · have hne : ¬(c :: rest).head? = some '"' := by simpa using hhead
      rw [if_neg hne]
      dsimp only
      by_cases hlast : (c :: rest).getLast? = some '"'
      · rw [if_pos hlast]
        simp only [hlast, ne_eq, not_true_eq_false, and_false, iff_false]
        intro heq
        have hlength := congrArg List.length heq
        simp at hlength
      · rw [if_neg hlast]
        simp [hhead, hlast]

/-- The name of a path on a side, when the header of the file gives this name for it. -/
def shownName (name path : List Char) : List Char := if name = [] then withoutQuotes path else name

/-- The names shown for a path. -/
def shownNames (path : List Char) : List Char × List Char :=
  let names := (gitNames ("diff --git a/".toList ++ path ++ " b/".toList ++ path)).getD ([], [])
  (shownName names.1 path, shownName names.2 path)

/-- A path is shown as it is: it holds no name behind a `b`, or it holds a line end and no quote at
an end. -/
def IsShownPath (path : List Char) : Prop :=
  if path.any StateMachines.endsLine then path.head? ≠ some '"' ∧ path.getLast? ≠ some '"'
  else ¬HoldsName path

theorem shownNames_eq_iff (path : List Char) :
    shownNames path = (path, path) ↔ IsShownPath path := by
  unfold shownNames IsShownPath
  rw [gitNames_path]
  by_cases hends : path.any StateMachines.endsLine = true
  · rw [if_pos hends, if_pos hends]
    simp only [Option.getD_none, shownName, if_true, Prod.mk.injEq, and_self]
    exact withoutQuotes_eq_self_iff path
  · rw [if_neg hends, if_neg hends]
    by_cases hnil : path = []
    · subst hnil
      refine iff_of_true (by decide) ?_
      rintro ⟨front, behind, hpath, hbehind⟩
      have hlength := congrArg List.length hpath
      simp only [List.length_append, List.length_nil] at hlength
      exact hbehind (List.eq_nil_of_length_eq_zero (by omega))
    · have hnames : IsNames (path ++ " b/".toList ++ path) path path := ⟨rfl, hnil, hnil⟩
      obtain ⟨old, new, hgreedy, -⟩ := greedyNames_longest hnames
      obtain ⟨-, hold, hnew⟩ := isNames_of_greedyNames hgreedy
      have hiff := greedyNames_path_iff path
      rw [hgreedy, Option.some_inj] at hiff
      simp only [hgreedy, Option.getD_some, shownName, hold, hnew, if_false]
      rw [hiff]
      exact and_iff_right hnil

/-! ## The header of a hunk -/

theorem digits_start (len : ℕ) (rest : List Char) :
    StateMachines.digits ((if len = 0 then ['0'] else ['1']) ++ ',' :: rest) =
      some (if len = 0 then ['0'] else ['1'], ',' :: rest) := by
  split <;> simp [StateMachines.digits]

theorem skipLength_decimal (len : ℕ) {rest : List Char} (hrest : rest.head? = some ' ') :
    StateMachines.skipLength (',' :: decimal len ++ rest) = rest := by
  have hblank : ∀ c ∈ rest.head?, c.isDigit = false := by
    rw [hrest]
    intro c hc
    cases hc
    rfl
  have hdigits : StateMachines.digits (decimal len ++ rest) = some (decimal len, rest) :=
    StateMachines.digits_decimal len hblank
  simp only [List.cons_append, StateMachines.skipLength, hdigits]

theorem ofDigitChars_start (len : ℕ) :
    Nat.ofDigitChars 10 (if len = 0 then ['0'] else ['1']) 0 = if len = 0 then 0 else 1 := by
  split <;> rfl

theorem hunkHeader_eq_append (oldLen newLen : ℕ) : hunkHeader oldLen newLen = "@@ -".toList ++
    ((if oldLen = 0 then ['0'] else ['1']) ++ ',' :: (decimal oldLen ++ (" +".toList ++
      ((if newLen = 0 then ['0'] else ['1']) ++ ',' :: (decimal newLen ++ " @@".toList))))) := by
  have hassoc (first between last oldStart oldCount newStart newCount : List Char) :
      first ++ oldStart ++ ',' :: oldCount ++ between ++ newStart ++ ',' :: newCount ++ last =
        first ++ (oldStart ++ ',' :: (oldCount ++ (between ++ (newStart ++ ',' ::
          (newCount ++ last))))) := by
    simp
  exact hassoc _ _ _ _ _ _ _

/-- The numbers of the first lines are read from the header. -/
theorem hunkStarts_hunkHeader (oldLen newLen : ℕ) :
    hunkStarts (hunkHeader oldLen newLen) =
      some (if oldLen = 0 then 0 else 1, if newLen = 0 then 0 else 1) := by
  rw [hunkHeader_eq_append, hunkStarts, StateMachines.behindFront_append, Option.bind_eq_bind,
    Option.bind_some, digits_start]
  simp only [Option.bind_eq_bind, Option.bind_some]
  rw [← List.cons_append, skipLength_decimal oldLen rfl, StateMachines.behindFront_append,
    Option.bind_some, digits_start]
  simp only [Option.bind_some]
  rw [← List.cons_append, skipLength_decimal newLen rfl]
  have hclose := StateMachines.behindFront_append " @@".toList []
  rw [List.append_nil] at hclose
  rw [hclose, Option.bind_some, ofDigitChars_start, ofDigitChars_start]
  rfl

/-! ## The body of a hunk -/

/-- The line of the operation is taken for the header of an old or a new file. -/
def LcsOp.isHidden : LcsOp (List Char) → Bool
  | .context _ => false
  | .remove text => "-- ".toList.isPrefixOf text
  | .add text => "++ ".toList.isPrefixOf text

/-- The lines that are shown, from these numbers on. -/
def shownLines (oldNo newNo : ℕ) : List (LcsOp (List Char)) → List DiffLine
  | [] => []
  | .context text :: ops =>
    { kind := .context, text := text, oldNo := some oldNo, newNo := some newNo } ::
      shownLines (oldNo + 1) (newNo + 1) ops
  | .remove text :: ops =>
    if LcsOp.isHidden (.remove text) then shownLines oldNo newNo ops
    else
      { kind := .remove, text := text, oldNo := some oldNo } :: shownLines (oldNo + 1) newNo ops
  | .add text :: ops =>
    if LcsOp.isHidden (.add text) then shownLines oldNo newNo ops
    else { kind := .add, text := text, newNo := some newNo } :: shownLines oldNo (newNo + 1) ops

/-- What the lines of a body make of the file they are in. -/
structure Reads (oldNo newNo : ℕ) (ops : List (LcsOp (List Char))) (f after : DiffFile) : Prop where
  hunks : ∀ header lines, f.hunks = [⟨header, lines⟩] →
    after.hunks = [⟨header, lines ++ shownLines oldNo newNo ops⟩]
  isBinary : after.isBinary = f.isBinary
  names : (∀ op ∈ ops, op.isHidden = false) →
    after.oldPath = f.oldPath ∧ after.newPath = f.newPath ∧
      after.added = f.added + ops.countP (fun op ↦ isMarked '+' op.line) ∧
      after.removed = f.removed + ops.countP (fun op ↦ isMarked '-' op.line)

variable (p : DiffParser)

theorem read_of_sign {sign : Char} (text : List Char)
    (hletters : sign ≠ 'd' ∧ sign ≠ 'B' ∧ sign ≠ '@')
    (hremoved : "--- ".toList.isPrefixOf (sign :: text) = false)
    (hadded : "+++ ".toList.isPrefixOf (sign :: text) = false) :
    p.read (sign :: text) =
      (if p.currentHunk ∧ p.current.isSome then p.readInHunk (sign :: text) else none).getD
        (p.modifyFile (·.pushMeta (sign :: text))) := by
  obtain ⟨hgit, hbinary, hhunk⟩ := hletters
  have hgit' : "diff --git ".toList.isPrefixOf (sign :: text) = false :=
    StateMachines.isPrefixOf_eq_false_of_head ⟨'d', rfl, hgit.symm⟩
  have hbinary' : "Binary files ".toList.isPrefixOf (sign :: text) = false :=
    StateMachines.isPrefixOf_eq_false_of_head ⟨'B', rfl, hbinary.symm⟩
  have hhunk' : "@@".toList.isPrefixOf (sign :: text) = false :=
    StateMachines.isPrefixOf_eq_false_of_head ⟨'@', rfl, hhunk.symm⟩
  rw [DiffParser.read, hgit', hremoved, hadded, hbinary', hhunk']
  rfl

theorem isPrefixOf_removed (text : List Char) :
    "--- ".toList.isPrefixOf ('-' :: text) = "-- ".toList.isPrefixOf text := by
  have hfront : "--- ".toList = '-' :: "-- ".toList := by decide
  rw [hfront, List.isPrefixOf_cons_cons, beq_self_eq_true, Bool.true_and]

theorem isPrefixOf_added (text : List Char) :
    "+++ ".toList.isPrefixOf ('+' :: text) = "++ ".toList.isPrefixOf text := by
  have hfront : "+++ ".toList = '+' :: "++ ".toList := by decide
  rw [hfront, List.isPrefixOf_cons_cons, beq_self_eq_true, Bool.true_and]

/-- A line that is hidden changes no hunk. -/
theorem read_hidden {f : DiffFile} (hcurrent : p.current = some f)
    {op : LcsOp (List Char)} (hhidden : op.isHidden = true) :
    ∃ after, p.read op.line = { p with current := some after } ∧ after.hunks = f.hunks ∧
      after.isBinary = f.isBinary := by
  have hensure : p.ensureFile = p := by simp [DiffParser.ensureFile, hcurrent]
  cases op with
  | context text => cases hhidden
  | remove text =>
    have hgit : "diff --git ".toList.isPrefixOf ('-' :: text) = false :=
      StateMachines.isPrefixOf_eq_false_of_head ⟨'d', rfl, by decide⟩
    have hold : "--- ".toList.isPrefixOf ('-' :: text) = true :=
      (isPrefixOf_removed text).trans hhidden
    rw [LcsOp.line, DiffParser.read, hgit, hold, hensure]
    simp only [Bool.false_eq_true, if_false, if_true, DiffParser.modifyFile, hcurrent,
      Option.map_some]
    exact ⟨_, rfl, rfl, rfl⟩
  | add text =>
    have hgit : "diff --git ".toList.isPrefixOf ('+' :: text) = false :=
      StateMachines.isPrefixOf_eq_false_of_head ⟨'d', rfl, by decide⟩
    have hold : "--- ".toList.isPrefixOf ('+' :: text) = false :=
      StateMachines.isPrefixOf_eq_false_of_head ⟨'-', rfl, by decide⟩
    have hnew : "+++ ".toList.isPrefixOf ('+' :: text) = true :=
      (isPrefixOf_added text).trans hhidden
    rw [LcsOp.line, DiffParser.read, hgit, hold, hnew, hensure]
    simp only [Bool.false_eq_true, if_false, if_true, DiffParser.modifyFile, hcurrent,
      Option.map_some]
    exact ⟨_, rfl, rfl, rfl⟩

/-- A line that is shown is pushed into the hunk. -/
theorem read_shown {f : DiffFile} (hcurrent : p.current = some f)
    (hhunk : p.currentHunk = true) {op : LcsOp (List Char)} (hshown : op.isHidden = false) :
    p.read op.line = (p.readInHunk op.line).getD p := by
  have hinside : p.currentHunk = true ∧ p.current.isSome = true := ⟨hhunk, by simp [hcurrent]⟩
  cases op with
  | context text =>
    rw [LcsOp.line, read_of_sign p text (by decide)
      (StateMachines.isPrefixOf_eq_false_of_head ⟨'-', rfl, by decide⟩)
      (StateMachines.isPrefixOf_eq_false_of_head ⟨'+', rfl, by decide⟩), if_pos hinside]
    rfl
  | remove text =>
    rw [LcsOp.line, read_of_sign p text (by decide) ((isPrefixOf_removed text).trans hshown)
      (StateMachines.isPrefixOf_eq_false_of_head ⟨'+', rfl, by decide⟩), if_pos hinside]
    rfl
  | add text =>
    rw [LcsOp.line, read_of_sign p text (by decide)
      (StateMachines.isPrefixOf_eq_false_of_head ⟨'-', rfl, by decide⟩)
      ((isPrefixOf_added text).trans hshown), if_pos hinside]
    rfl

theorem hunks_pushLine {f : DiffFile} {header : List Char} {lines : List DiffLine}
    (h : f.hunks = [⟨header, lines⟩]) (line : DiffLine) :
    (f.pushLine line).hunks = [⟨header, lines ++ [line]⟩] := by
  rw [DiffFile.pushLine, h]
  rfl

theorem reads_nil (oldNo newNo : ℕ) (f : DiffFile) : Reads oldNo newNo [] f f where
  hunks := by
    intro header lines h
    simpa [shownLines] using h
  isBinary := rfl
  names := fun _ ↦ ⟨rfl, rfl, rfl, rfl⟩

/-- A shown line in front of the others. -/
theorem reads_cons {oldNo newNo oldNext newNext added removed : ℕ} {op : LcsOp (List Char)}
    {ops : List (LcsOp (List Char))} {f after : DiffFile} {line : DiffLine}
    (hlines : shownLines oldNo newNo (op :: ops) = line :: shownLines oldNext newNext ops)
    (hadded : added = if isMarked '+' op.line then 1 else 0)
    (hremoved : removed = if isMarked '-' op.line then 1 else 0)
    (h : Reads oldNext newNext ops
      { f.pushLine line with added := f.added + added, removed := f.removed + removed } after) :
    Reads oldNo newNo (op :: ops) f after where
  hunks := by
    intro header lines hf
    rw [hlines, h.hunks header (lines ++ [line]) (hunks_pushLine hf line), List.append_assoc]
    rfl
  isBinary := h.isBinary
  names := by
    intro hshown
    obtain ⟨hold, hnew, hadds, hremoves⟩ :=
      h.names fun other hother ↦ hshown other (List.mem_cons_of_mem op hother)
    refine ⟨hold, hnew, ?_, ?_⟩
    · rw [hadds, List.countP_cons, hadded]
      dsimp only
      omega
    · rw [hremoves, List.countP_cons, hremoved]
      dsimp only
      omega

/-- A hidden line in front of the others. -/
theorem reads_hidden {oldNo newNo : ℕ} {op : LcsOp (List Char)} {ops : List (LcsOp (List Char))}
    {f middle after : DiffFile} (hhidden : op.isHidden = true) (hhunks : middle.hunks = f.hunks)
    (hbinary : middle.isBinary = f.isBinary) (h : Reads oldNo newNo ops middle after) :
    Reads oldNo newNo (op :: ops) f after where
  hunks := by
    have hskip : shownLines oldNo newNo (op :: ops) = shownLines oldNo newNo ops := by
      cases op with
      | context text => cases hhidden
      | remove text => simp only [shownLines, hhidden, if_true]
      | add text => simp only [shownLines, hhidden, if_true]
    rw [hskip, ← hhunks]
    exact h.hunks
  isBinary := h.isBinary.trans hbinary
  names := by
    intro hshown
    rw [hshown op List.mem_cons_self] at hhidden
    cases hhidden

/-- The parser goes through the body of a hunk. -/
theorem foldl_read_body (ops : List (LcsOp (List Char))) (p : DiffParser) {f : DiffFile}
    (hcurrent : p.current = some f) (hhunk : p.currentHunk = true) :
    ∃ q after, (ops.map LcsOp.line).foldl DiffParser.read p = q ∧ q.files = p.files ∧
      q.current = some after ∧ Reads p.oldNo p.newNo ops f after := by
  induction ops generalizing p f with
  | nil => exact ⟨p, f, rfl, rfl, hcurrent, reads_nil p.oldNo p.newNo f⟩
  | cons op ops ih =>
    rw [List.map_cons, List.foldl_cons]
    by_cases hhidden : op.isHidden = true
    · obtain ⟨middle, hread, hhunks, hbinary⟩ := read_hidden p hcurrent hhidden
      rw [hread]
      obtain ⟨q, after, hq, hfiles, hafter, hreads⟩ :=
        ih { p with current := some middle } rfl hhunk
      exact ⟨q, after, hq, hfiles, hafter, reads_hidden hhidden hhunks hbinary hreads⟩
    · have hshown : op.isHidden = false := Bool.not_eq_true _ ▸ hhidden
      rw [read_shown p hcurrent hhunk hshown]
      cases op with
      | context text =>
        obtain ⟨q, after, hq, hfiles, hafter, hreads⟩ := ih
          { p with
            current := some
              (f.pushLine ⟨.context, text, some p.oldNo, some p.newNo⟩)
            oldNo := p.oldNo + 1
            newNo := p.newNo + 1 } rfl hhunk
        refine ⟨q, after, ?_, hfiles, hafter, reads_cons rfl rfl rfl hreads⟩
        rw [← hq]
        simp only [LcsOp.line, DiffParser.readInHunk, Option.getD_some, DiffParser.modifyFile,
          hcurrent, Option.map_some]
      | remove text =>
        have hlines : shownLines p.oldNo p.newNo (.remove text :: ops) =
            { kind := .remove, text := text, oldNo := some p.oldNo } ::
              shownLines (p.oldNo + 1) p.newNo ops := by
          rw [shownLines, if_neg hhidden]
        obtain ⟨q, after, hq, hfiles, hafter, hreads⟩ := ih
          { p with
            current := some { f.pushLine { kind := .remove, text := text, oldNo := some p.oldNo } with
              removed := f.removed + 1 }
            oldNo := p.oldNo + 1 } rfl hhunk
        refine ⟨q, after, ?_, hfiles, hafter, reads_cons hlines rfl rfl hreads⟩
        rw [← hq]
        simp only [LcsOp.line, DiffParser.readInHunk, Option.getD_some, DiffParser.modifyFile,
          hcurrent, Option.map_some]
      | add text =>
        have hlines : shownLines p.oldNo p.newNo (.add text :: ops) =
            { kind := .add, text := text, newNo := some p.newNo } ::
              shownLines p.oldNo (p.newNo + 1) ops := by
          rw [shownLines, if_neg hhidden]
        obtain ⟨q, after, hq, hfiles, hafter, hreads⟩ := ih
          { p with
            current := some { f.pushLine { kind := .add, text := text, newNo := some p.newNo } with
              added := f.added + 1 }
            newNo := p.newNo + 1 } rfl hhunk
        refine ⟨q, after, ?_, hfiles, hafter, reads_cons hlines rfl rfl hreads⟩
        rw [← hq]
        simp only [LcsOp.line, DiffParser.readInHunk, Option.getD_some, DiffParser.modifyFile,
          hcurrent, Option.map_some]

/-! ## Entries -/

/-- The file that the lines of an entry come to. -/
structure IsFileOf (entry : JournalEntry) (f : DiffFile) : Prop where
  reads : ∃ metaLines, Reads (if (textLines entry.original).length = 0 then 0 else 1)
    (if (textLines entry.current).length = 0 then 0 else 1)
    (lcsLineDiff (textLines entry.original) (textLines entry.current))
    { oldPath := (shownNames entry.filePath).1
      newPath := (shownNames entry.filePath).2
      hunks := [⟨hunkHeader (textLines entry.original).length (textLines entry.current).length, []⟩]
      metaLines := metaLines } f

/-- The lines of an entry. -/
def entryLines (entry : JournalEntry) : List (List Char) :=
  fileHeader entry.filePath ++
    hunkHeader (textLines entry.original).length (textLines entry.current).length ::
      hunkBody entry

theorem isPrefixOf_append_of_eq {front rest line : List Char} (h : line = front ++ rest)
    (behind : List Char) : front.isPrefixOf (line ++ behind) = true := by
  rw [h, List.append_assoc]
  exact List.isPrefixOf_iff_prefix.mpr (List.prefix_append _ _)

theorem read_git (path : List Char) :
    p.read ("diff --git a/".toList ++ path ++ " b/".toList ++ path) =
      (p.startFile
        ((gitNames ("diff --git a/".toList ++ path ++ " b/".toList ++ path)).getD ([], [])).1
        ((gitNames ("diff --git a/".toList ++ path ++ " b/".toList ++ path)).getD ([], [])).2
        ).modifyFile (·.pushMeta ("diff --git a/".toList ++ path ++ " b/".toList ++ path)) := by
  have hsplit : "diff --git a/".toList = "diff --git ".toList ++ "a/".toList := by decide
  have hgit : "diff --git ".toList.isPrefixOf
      ("diff --git a/".toList ++ path ++ " b/".toList ++ path) = true := by
    rw [List.append_assoc, List.append_assoc]
    exact isPrefixOf_append_of_eq hsplit _
  rw [DiffParser.read, if_pos hgit]

theorem read_old {f : DiffFile} (hcurrent : p.current = some f)
    (path : List Char) :
    p.read ("--- a/".toList ++ path) =
      { p with
        current := some
          ({ f with oldPath := shownName f.oldPath path }.pushMeta ("--- a/".toList ++ path)) } := by
  have hsplit : "--- a/".toList = "--- ".toList ++ "a/".toList := by decide
  have hold := isPrefixOf_append_of_eq hsplit path
  have hhead : "--- a/".toList = '-' :: "-- a/".toList := by decide
  have hgit : "diff --git ".toList.isPrefixOf ("--- a/".toList ++ path) = false := by
    rw [hhead]
    exact StateMachines.isPrefixOf_eq_false_of_head ⟨'d', rfl, by decide⟩
  have hensure : p.ensureFile = p := by simp [DiffParser.ensureFile, hcurrent]
  rw [DiffParser.read, hgit, hold, hensure, headerPath_old]
  simp only [Bool.false_eq_true, if_false, if_true, DiffParser.modifyFile, hcurrent,
    Option.map_some, shownName]

theorem read_new {f : DiffFile} (hcurrent : p.current = some f)
    (path : List Char) :
    p.read ("+++ b/".toList ++ path) =
      { p with
        current := some
          ({ f with newPath := shownName f.newPath path }.pushMeta ("+++ b/".toList ++ path)) } := by
  have hsplit : "+++ b/".toList = "+++ ".toList ++ "b/".toList := by decide
  have hnew := isPrefixOf_append_of_eq hsplit path
  have hhead : "+++ b/".toList = '+' :: "++ b/".toList := by decide
  have hgit : "diff --git ".toList.isPrefixOf ("+++ b/".toList ++ path) = false := by
    rw [hhead]
    exact StateMachines.isPrefixOf_eq_false_of_head ⟨'d', rfl, by decide⟩
  have hold : "--- ".toList.isPrefixOf ("+++ b/".toList ++ path) = false := by
    rw [hhead]
    exact StateMachines.isPrefixOf_eq_false_of_head ⟨'-', rfl, by decide⟩
  have hensure : p.ensureFile = p := by simp [DiffParser.ensureFile, hcurrent]
  rw [DiffParser.read, hgit, hold, hnew, hensure, headerPath_new]
  simp only [Bool.false_eq_true, if_false, if_true, DiffParser.modifyFile, hcurrent,
    Option.map_some, shownName]

theorem read_hunkHeader {f : DiffFile} (hcurrent : p.current = some f)
    (oldLen newLen : ℕ) :
    p.read (hunkHeader oldLen newLen) =
      { p with
        current := some { f with hunks := f.hunks ++ [⟨hunkHeader oldLen newLen, []⟩] }
        currentHunk := true
        oldNo := if oldLen = 0 then 0 else 1
        newNo := if newLen = 0 then 0 else 1 } := by
  obtain ⟨rest, hrest⟩ : ∃ rest, hunkHeader oldLen newLen = '@' :: '@' :: rest := by
    have hfront : "@@ -".toList = ['@', '@', ' ', '-'] := by decide
    rw [hunkHeader_eq_append, hfront]
    exact ⟨_, rfl⟩
  have hhunk : "@@".toList.isPrefixOf (hunkHeader oldLen newLen) = true := by
    rw [hrest]
    have hfront : "@@".toList = ['@', '@'] := by decide
    simp [hfront]
  have hother (front : List Char) (hfront : ∃ d ∈ front.head?, d ≠ '@') :
      front.isPrefixOf (hunkHeader oldLen newLen) = false := by
    rw [hrest]
    exact StateMachines.isPrefixOf_eq_false_of_head hfront
  have hensure : p.ensureFile = p := by simp [DiffParser.ensureFile, hcurrent]
  rw [DiffParser.read, hother _ ⟨'d', rfl, by decide⟩, hother _ ⟨'-', rfl, by decide⟩,
    hother _ ⟨'+', rfl, by decide⟩, hother _ ⟨'B', rfl, by decide⟩, hhunk, hensure,
    hunkStarts_hunkHeader]
  simp only [Bool.false_eq_true, if_false, if_true, DiffParser.modifyFile, hcurrent,
    Option.map_some, Option.getD_some]

theorem read_header (entry : JournalEntry) :
    ∃ q metaLines,
      (fileHeader entry.filePath ++
        [hunkHeader (textLines entry.original).length (textLines entry.current).length]).foldl
          DiffParser.read p = q ∧
      q.files = p.allFiles ∧
      q.current = some
        { oldPath := (shownNames entry.filePath).1
          newPath := (shownNames entry.filePath).2
          hunks := [⟨hunkHeader (textLines entry.original).length
            (textLines entry.current).length, []⟩]
          metaLines := metaLines } ∧
      q.currentHunk = true ∧
      q.oldNo = (if (textLines entry.original).length = 0 then 0 else 1) ∧
      q.newNo = (if (textLines entry.current).length = 0 then 0 else 1) := by
  have hfold : ∀ (a b c d : List Char), ([a, b, c] ++ [d]).foldl DiffParser.read p =
      (((p.read a).read b).read c).read d := fun _ _ _ _ ↦ rfl
  rw [fileHeader, hfold, read_git, read_old _ rfl, read_new _ rfl, read_hunkHeader _ rfl]
  exact ⟨_, _, rfl, rfl, rfl, rfl, rfl, rfl⟩

/-- The lines of an entry come to one more file. -/
theorem read_entry (entry : JournalEntry) :
    ∃ f, ((entryLines entry).foldl DiffParser.read p).allFiles = p.allFiles ++ [f] ∧
      IsFileOf entry f := by
  have hlines : entryLines entry = (fileHeader entry.filePath ++
      [hunkHeader (textLines entry.original).length (textLines entry.current).length]) ++
        hunkBody entry := by
    simp [entryLines]
  obtain ⟨q, metaLines, hheader, hfiles, hcurrent, hhunk, hold, hnew⟩ := read_header p entry
  rw [hlines, List.foldl_append, hheader]
  obtain ⟨q', f, hq', hfiles', hcurrent', hreads⟩ := foldl_read_body
    (lcsLineDiff (textLines entry.original) (textLines entry.current)) q hcurrent hhunk
  rw [hold, hnew] at hreads
  refine ⟨f, ?_, ⟨metaLines, hreads⟩⟩
  rw [hunkBody, hq', DiffParser.allFiles, hfiles', hcurrent', hfiles]
  rfl

theorem read_entries (entries : List JournalEntry) (p : DiffParser) :
    ∃ files, ((entries.flatMap entryLines).foldl DiffParser.read p).allFiles =
      p.allFiles ++ files ∧ List.Forall₂ IsFileOf entries files := by
  induction entries generalizing p with
  | nil => exact ⟨[], by simp, .nil⟩
  | cons entry entries ih =>
    rw [List.flatMap_cons, List.foldl_append]
    obtain ⟨f, hf, hfile⟩ := read_entry p entry
    obtain ⟨files, hfiles, hall⟩ := ih ((entryLines entry).foldl DiffParser.read p)
    refine ⟨f :: files, ?_, .cons hfile hall⟩
    rw [hfiles, hf, List.append_assoc]
    rfl

/-- The files that are shown of a journal, one for each entry. -/
theorem parseUnifiedDiff_render {j : FileEditJournal}
    (hpaths : ∀ entry ∈ j.entries, '\n' ∉ entry.filePath) :
    List.Forall₂ IsFileOf j.entries (parseUnifiedDiff (renderJournalAsUnifiedDiff j)) := by
  by_cases hempty : j.entries = []
  · have hraw : renderJournalAsUnifiedDiff j = [] := by
      rw [renderJournalAsUnifiedDiff, hempty]
      rfl
    rw [hraw, hempty]
    exact .nil
  · have hlines : (renderJournalAsUnifiedDiff j).splitOn '\n' = j.entries.flatMap entryLines := by
      rw [lines_renderJournalAsUnifiedDiff hempty]
      apply List.flatMap_congr
      intro entry hentry
      rw [← hunkHeader_eq, entryLines]
      congr 1
      have hpath := hpaths entry hentry
      have hgit : '\n' ∉ "diff --git a/".toList ++ entry.filePath ++ " b/".toList ++
          entry.filePath := by
        have hfront : '\n' ∉ "diff --git a/".toList := by decide
        have hbetween : '\n' ∉ " b/".toList := by decide
        simp only [List.mem_append, not_or]
        exact ⟨⟨⟨hfront, hpath⟩, hbetween⟩, hpath⟩
      have hold : '\n' ∉ "--- a/".toList ++ entry.filePath := by
        have hfront : '\n' ∉ "--- a/".toList := by decide
        simp only [List.mem_append, not_or]
        exact ⟨hfront, hpath⟩
      have hnew : '\n' ∉ "+++ b/".toList ++ entry.filePath := by
        have hfront : '\n' ∉ "+++ b/".toList := by decide
        simp only [List.mem_append, not_or]
        exact ⟨hfront, hpath⟩
      simp only [fileHeader, List.flatMap_cons, List.flatMap_nil, List.append_nil,
        List.splitOn_eq_singleton hgit, List.splitOn_eq_singleton hold,
        List.splitOn_eq_singleton hnew, List.cons_append, List.nil_append]
    have hraw : renderJournalAsUnifiedDiff j ≠ [] := by
      intro hnil
      obtain ⟨entry, entries, hcons⟩ := List.exists_cons_of_ne_nil hempty
      rw [hnil, hcons, List.flatMap_cons, entryLines, fileHeader] at hlines
      cases hlines
    obtain ⟨files, hfiles, hall⟩ := read_entries j.entries {}
    rw [parseUnifiedDiff, if_neg hraw, hlines, hfiles]
    exact hall

/-! ## The two sides of a file -/

def DiffLine.oldSide (line : DiffLine) : Option (List Char × Option ℕ) :=
  if line.onOriginal then some (line.text, line.oldNo) else none

def DiffLine.newSide (line : DiffLine) : Option (List Char × Option ℕ) :=
  if line.onModified then some (line.text, line.newNo) else none

/-- The removed and context lines of a file, with their numbers. -/
def DiffFile.oldLines (f : DiffFile) : List (List Char × Option ℕ) :=
  f.hunks.flatMap (·.lines.filterMap DiffLine.oldSide)

/-- The added and context lines of a file, with their numbers. -/
def DiffFile.newLines (f : DiffFile) : List (List Char × Option ℕ) :=
  f.hunks.flatMap (·.lines.filterMap DiffLine.newSide)

/-- Lines with their numbers from this one on. -/
def numberedFrom (start : ℕ) (lines : List (List Char)) : List (List Char × Option ℕ) :=
  (lines.zipIdx start).map fun line ↦ (line.1, some line.2)

theorem numberedFrom_cons (start : ℕ) (line : List Char) (lines : List (List Char)) :
    numberedFrom start (line :: lines) = (line, some start) :: numberedFrom (start + 1) lines := by
  simp [numberedFrom]

theorem map_fst_numberedFrom (start : ℕ) (lines : List (List Char)) :
    (numberedFrom start lines).map (·.1) = lines := by
  induction lines generalizing start with
  | nil => rfl
  | cons line lines ih => rw [numberedFrom_cons, List.map_cons, ih]

/-- The first number does not matter when there is no line. -/
theorem numberedFrom_start (lines : List (List Char)) :
    numberedFrom (if lines.length = 0 then 0 else 1) lines = numberedFrom 1 lines := by
  cases lines with
  | nil => rfl
  | cons line lines => rfl

variable {ops : List (LcsOp (List Char))}

theorem oldSide_shownLines (hshown : ∀ op ∈ ops, op.isHidden = false) (oldNo newNo : ℕ) :
    (shownLines oldNo newNo ops).filterMap DiffLine.oldSide =
      numberedFrom oldNo (ops.filterMap LcsOp.oldLine) := by
  induction ops generalizing oldNo newNo with
  | nil => rfl
  | cons op ops ih =>
    have hrest := ih fun other hother ↦ hshown other (List.mem_cons_of_mem op hother)
    have hop := hshown op List.mem_cons_self
    cases op with
    | context text =>
      simp [shownLines, DiffLine.oldSide, DiffLine.onOriginal, LcsOp.oldLine, numberedFrom_cons,
        hrest]
    | remove text =>
      simp [shownLines, hop, DiffLine.oldSide, DiffLine.onOriginal, LcsOp.oldLine,
        numberedFrom_cons, hrest]
    | add text =>
      have hline : LcsOp.oldLine (.add text) = none := rfl
      rw [List.filterMap_cons_none hline, ← hrest oldNo (newNo + 1)]
      simp [shownLines, hop, DiffLine.oldSide, DiffLine.onOriginal]

theorem newSide_shownLines (hshown : ∀ op ∈ ops, op.isHidden = false) (oldNo newNo : ℕ) :
    (shownLines oldNo newNo ops).filterMap DiffLine.newSide =
      numberedFrom newNo (ops.filterMap LcsOp.newLine) := by
  induction ops generalizing oldNo newNo with
  | nil => rfl
  | cons op ops ih =>
    have hrest := ih fun other hother ↦ hshown other (List.mem_cons_of_mem op hother)
    have hop := hshown op List.mem_cons_self
    cases op with
    | context text =>
      simp [shownLines, DiffLine.newSide, DiffLine.onModified, LcsOp.newLine, numberedFrom_cons,
        hrest]
    | remove text =>
      have hline : LcsOp.newLine (.remove text) = none := rfl
      rw [List.filterMap_cons_none hline, ← hrest (oldNo + 1) newNo]
      simp [shownLines, hop, DiffLine.newSide, DiffLine.onModified]
    | add text =>
      simp [shownLines, hop, DiffLine.newSide, DiffLine.onModified, LcsOp.newLine,
        numberedFrom_cons, hrest]

/-- A side takes a shown line when it has the operation's line. -/
structure FitsSide (side : DiffLine → Option (List Char × Option ℕ))
    (line : LcsOp (List Char) → Option (List Char)) : Prop where
  context (text : List Char) (oldNo newNo : ℕ) :
    (side ⟨.context, text, some oldNo, some newNo⟩).isSome = (line (.context text)).isSome
  remove (text : List Char) (oldNo : ℕ) :
    (side ⟨.remove, text, some oldNo, none⟩).isSome = (line (.remove text)).isSome
  add (text : List Char) (newNo : ℕ) :
    (side ⟨.add, text, none, some newNo⟩).isSome = (line (.add text)).isSome

theorem fitsSide_old : FitsSide DiffLine.oldSide LcsOp.oldLine where
  context _ _ _ := rfl
  remove _ _ := rfl
  add _ _ := rfl

theorem fitsSide_new : FitsSide DiffLine.newSide LcsOp.newLine where
  context _ _ _ := rfl
  remove _ _ := rfl
  add _ _ := rfl

/-- Each hidden line is missing on its side. -/
theorem FitsSide.length_shownLines {side : DiffLine → Option (List Char × Option ℕ)}
    {line : LcsOp (List Char) → Option (List Char)} (h : FitsSide side line)
    (ops : List (LcsOp (List Char))) (oldNo newNo : ℕ) :
    ((shownLines oldNo newNo ops).filterMap side).length +
      ops.countP (fun op ↦ op.isHidden && (line op).isSome) = (ops.filterMap line).length := by
  rw [List.length_filterMap_eq_countP, List.length_filterMap_eq_countP]
  induction ops generalizing oldNo newNo with
  | nil => rfl
  | cons op ops ih =>
    cases op with
    | context text =>
      have hrest := ih (oldNo + 1) (newNo + 1)
      have hshown : LcsOp.isHidden (.context text) = false := rfl
      simp only [shownLines, List.countP_cons, h.context, hshown, Bool.false_and,
        Bool.false_eq_true, if_false]
      omega
    | remove text =>
      by_cases hhidden : LcsOp.isHidden (.remove text) = true
      · have hrest := ih oldNo newNo
        simp only [shownLines, hhidden, if_true, List.countP_cons, Bool.true_and]
        omega
      · have hrest := ih (oldNo + 1) newNo
        simp only [shownLines, hhidden, Bool.false_eq_true, if_false, List.countP_cons, h.remove,
          Bool.false_and]
        omega
    | add text =>
      by_cases hhidden : LcsOp.isHidden (.add text) = true
      · have hrest := ih oldNo newNo
        simp only [shownLines, hhidden, if_true, List.countP_cons, Bool.true_and]
        omega
      · have hrest := ih oldNo (newNo + 1)
        simp only [shownLines, hhidden, Bool.false_eq_true, if_false, List.countP_cons, h.add,
          Bool.false_and]
        omega

/-! ## What is shown of an entry -/

/-- The operations between the two texts of an entry. -/
def JournalEntry.lcsOps (entry : JournalEntry) : List (LcsOp (List Char)) :=
  lcsLineDiff (textLines entry.original) (textLines entry.current)

/-- The file shows the path of the entry, and all lines of both texts with their numbers. -/
structure ShowsEntry (entry : JournalEntry) (f : DiffFile) : Prop where
  oldPath : f.oldPath = entry.filePath
  newPath : f.newPath = entry.filePath
  oldLines : f.oldLines = numberedFrom 1 (textLines entry.original)
  newLines : f.newLines = numberedFrom 1 (textLines entry.current)
  added : f.added = (countLcsDelta (textLines entry.original) (textLines entry.current)).added
  removed : f.removed = (countLcsDelta (textLines entry.original) (textLines entry.current)).removed

/-- Each side holds the lines of its text behind the header of the hunk. -/
structure ShowsSides (entry : JournalEntry) (pair : DiffFilePair) : Prop where
  path : pair.path = entry.filePath
  original : pair.originalContent = joinLines
    (hunkHeader (textLines entry.original).length (textLines entry.current).length ::
      textLines entry.original)
  modified : pair.modifiedContent = joinLines
    (hunkHeader (textLines entry.original).length (textLines entry.current).length ::
      textLines entry.current)

/-- The path of the entry is shown as it is, no line that is removed begins with two minuses and a
blank, and no line that is added with two pluses and a blank. -/
structure IsShown (entry : JournalEntry) : Prop where
  path : IsShownPath entry.filePath
  lines : ∀ op ∈ entry.lcsOps, op.isHidden = false

variable {entry : JournalEntry} {f : DiffFile}

theorem IsFileOf.hunks_eq (h : IsFileOf entry f) :
    f.hunks = [⟨hunkHeader (textLines entry.original).length (textLines entry.current).length,
      shownLines (if (textLines entry.original).length = 0 then 0 else 1)
        (if (textLines entry.current).length = 0 then 0 else 1) entry.lcsOps⟩] := by
  obtain ⟨metaLines, hreads⟩ := h.reads
  exact hreads.hunks _ [] rfl

theorem IsFileOf.oldLines_eq (h : IsFileOf entry f) :
    f.oldLines = (shownLines (if (textLines entry.original).length = 0 then 0 else 1)
      (if (textLines entry.current).length = 0 then 0 else 1) entry.lcsOps).filterMap
        DiffLine.oldSide := by
  rw [DiffFile.oldLines, h.hunks_eq, List.flatMap_singleton]

theorem IsFileOf.newLines_eq (h : IsFileOf entry f) :
    f.newLines = (shownLines (if (textLines entry.original).length = 0 then 0 else 1)
      (if (textLines entry.current).length = 0 then 0 else 1) entry.lcsOps).filterMap
        DiffLine.newSide := by
  rw [DiffFile.newLines, h.hunks_eq, List.flatMap_singleton]

theorem length_numberedFrom (start : ℕ) (lines : List (List Char)) :
    (numberedFrom start lines).length = lines.length := by
  simp [numberedFrom]

/-- When both sides are complete, no line is hidden. -/
theorem IsFileOf.isHidden_eq_false (h : IsFileOf entry f)
    (hold : f.oldLines = numberedFrom 1 (textLines entry.original))
    (hnew : f.newLines = numberedFrom 1 (textLines entry.current)) :
    ∀ op ∈ entry.lcsOps, op.isHidden = false := by
  have hturns := turns_lcsLineDiff (textLines entry.original) (textLines entry.current)
  have holdCount := fitsSide_old.length_shownLines entry.lcsOps
    (if (textLines entry.original).length = 0 then 0 else 1)
    (if (textLines entry.current).length = 0 then 0 else 1)
  have hnewCount := fitsSide_new.length_shownLines entry.lcsOps
    (if (textLines entry.original).length = 0 then 0 else 1)
    (if (textLines entry.current).length = 0 then 0 else 1)
  rw [← h.oldLines_eq, hold, length_numberedFrom, JournalEntry.lcsOps, hturns.old_lines] at holdCount
  rw [← h.newLines_eq, hnew, length_numberedFrom, JournalEntry.lcsOps, hturns.new_lines] at hnewCount
  have holdNone := List.countP_eq_zero.mp (Nat.add_eq_left.mp holdCount)
  have hnewNone := List.countP_eq_zero.mp (Nat.add_eq_left.mp hnewCount)
  intro op hop
  cases op with
  | context text => rfl
  | remove text => simpa [LcsOp.oldLine] using holdNone _ hop
  | add text => simpa [LcsOp.newLine] using hnewNone _ hop

theorem IsFileOf.names (h : IsFileOf entry f) (hlines : ∀ op ∈ entry.lcsOps, op.isHidden = false) :
    f.oldPath = (shownNames entry.filePath).1 ∧ f.newPath = (shownNames entry.filePath).2 ∧
      f.added = (countLcsDelta (textLines entry.original) (textLines entry.current)).added ∧
      f.removed = (countLcsDelta (textLines entry.original) (textLines entry.current)).removed := by
  obtain ⟨metaLines, hreads⟩ := h.reads
  obtain ⟨hold, hnew, hadded, hremoved⟩ := hreads.names hlines
  refine ⟨hold, hnew, ?_, ?_⟩
  · rw [hadded, countLcsDelta_eq, hunkBody, List.countP_map]
    exact Nat.zero_add _
  · rw [hremoved, countLcsDelta_eq, hunkBody]
    simp only [List.countP_map]
    exact Nat.zero_add _

/-- An entry is shown exactly when nothing of it is taken for a header. -/
theorem IsFileOf.showsEntry_iff (h : IsFileOf entry f) : ShowsEntry entry f ↔ IsShown entry := by
  constructor
  · intro hshows
    have hlines := h.isHidden_eq_false hshows.oldLines hshows.newLines
    obtain ⟨hold, hnew, -, -⟩ := h.names hlines
    refine ⟨(shownNames_eq_iff entry.filePath).mp ?_, hlines⟩
    exact Prod.ext (hold.symm.trans hshows.oldPath) (hnew.symm.trans hshows.newPath)
  · intro hshown
    have hturns := turns_lcsLineDiff (textLines entry.original) (textLines entry.current)
    have hnames := (shownNames_eq_iff entry.filePath).mpr hshown.path
    obtain ⟨hold, hnew, hadded, hremoved⟩ := h.names hshown.lines
    rw [hnames] at hold hnew
    refine ⟨hold, hnew, ?_, ?_, hadded, hremoved⟩
    · rw [h.oldLines_eq, oldSide_shownLines hshown.lines, JournalEntry.lcsOps, hturns.old_lines,
        numberedFrom_start]
    · rw [h.newLines_eq, newSide_shownLines hshown.lines, JournalEntry.lcsOps, hturns.new_lines,
        numberedFrom_start]

theorem map_text_filter_onOriginal (lines : List DiffLine) :
    (lines.filter DiffLine.onOriginal).map (·.text) =
      (lines.filterMap DiffLine.oldSide).map (·.1) := by
  induction lines with
  | nil => rfl
  | cons line lines ih =>
    by_cases hside : line.onOriginal = true
    · simp [hside, DiffLine.oldSide, ih]
    · simp [hside, DiffLine.oldSide, ih]

theorem map_text_filter_onModified (lines : List DiffLine) :
    (lines.filter DiffLine.onModified).map (·.text) =
      (lines.filterMap DiffLine.newSide).map (·.1) := by
  induction lines with
  | nil => rfl
  | cons line lines ih =>
    by_cases hside : line.onModified = true
    · simp [hside, DiffLine.newSide, ih]
    · simp [hside, DiffLine.newSide, ih]

theorem sideLines_singleton (onSide : DiffLine → Bool) (hunk : DiffHunk) :
    sideLines onSide [hunk] = hunk.header :: (hunk.lines.filter onSide).map (·.text) := rfl

/-- The two sides of an entry that is shown. -/
theorem IsFileOf.showsSides (h : IsFileOf entry f) (hshows : ShowsEntry entry f) :
    ShowsSides entry (toFilePair f) := by
  have hbinary : f.isBinary = false := by
    obtain ⟨metaLines, hreads⟩ := h.reads
    exact hreads.isBinary
  constructor
  · simp only [toFilePair, hshows.oldPath, hshows.newPath]
    exact ite_id _
  · have hold := hshows.oldLines
    rw [h.oldLines_eq] at hold
    simp only [toFilePair, hbinary, Bool.false_eq_true, if_false, h.hunks_eq, sideLines_singleton,
      map_text_filter_onOriginal, hold, map_fst_numberedFrom]
  · have hnew := hshows.newLines
    rw [h.newLines_eq] at hnew
    simp only [toFilePair, hbinary, Bool.false_eq_true, if_false, h.hunks_eq, sideLines_singleton,
      map_text_filter_onModified, hnew, map_fst_numberedFrom]

/-! ## Journals -/

/-- The review pane shows a journal: a file for each entry, with the totals of the summary and both
sides of each file. -/
structure ShowsJournal (j : FileEditJournal) : Prop where
  files : List.Forall₂ ShowsEntry j.entries (parseUnifiedDiff (renderJournalAsUnifiedDiff j))
  totals : ∀ summary ∈ summarizeJournal j,
    ((parseUnifiedDiff (renderJournalAsUnifiedDiff j)).map (·.added)).sum = summary.added ∧
      ((parseUnifiedDiff (renderJournalAsUnifiedDiff j)).map (·.removed)).sum = summary.removed
  sides : List.Forall₂ ShowsSides j.entries
    (unifiedDiffToFilePairs (renderJournalAsUnifiedDiff j))

theorem forall₂_showsEntry_iff {entries : List JournalEntry} {files : List DiffFile}
    (h : List.Forall₂ IsFileOf entries files) :
    List.Forall₂ ShowsEntry entries files ↔ ∀ entry ∈ entries, IsShown entry := by
  induction h with
  | nil => exact iff_of_true .nil (by simp)
  | cons hfile hrest ih =>
    rw [List.forall₂_cons, hfile.showsEntry_iff, ih, List.forall_mem_cons]

theorem forall₂_showsSides {entries : List JournalEntry} {files : List DiffFile}
    (h : List.Forall₂ IsFileOf entries files) (hshows : List.Forall₂ ShowsEntry entries files) :
    List.Forall₂ ShowsSides entries (files.map toFilePair) := by
  induction h with
  | nil => exact .nil
  | cons hfile hrest ih =>
    obtain ⟨hentry, hentries⟩ := List.forall₂_cons.mp hshows
    exact .cons (hfile.showsSides hentry) (ih hentries)

theorem totals_of_showsEntry {entries : List JournalEntry} {files : List DiffFile}
    (h : List.Forall₂ ShowsEntry entries files) :
    (files.map (·.added)).sum = (entries.map fun e ↦
        (countLcsDelta (textLines e.original) (textLines e.current)).added).sum ∧
      (files.map (·.removed)).sum = (entries.map fun e ↦
        (countLcsDelta (textLines e.original) (textLines e.current)).removed).sum := by
  induction h with
  | nil => exact ⟨rfl, rfl⟩
  | cons hentry hrest ih =>
    simp only [List.map_cons, List.sum_cons, hentry.added, hentry.removed, ih, and_self]

/-- The review pane shows a journal exactly when nothing of its entries is taken for a header. -/
theorem showsJournal_iff (j : FileEditJournal)
    (hpaths : ∀ entry ∈ j.entries, '\n' ∉ entry.filePath) :
    ShowsJournal j ↔ ∀ entry ∈ j.entries, IsShown entry := by
  have hfiles := parseUnifiedDiff_render hpaths
  constructor
  · intro hshows
    exact (forall₂_showsEntry_iff hfiles).mp hshows.files
  · intro hshown
    have hshows := (forall₂_showsEntry_iff hfiles).mpr hshown
    refine ⟨hshows, ?_, forall₂_showsSides hfiles hshows⟩
    intro summary hsummary
    obtain ⟨hadded, hremoved⟩ := totals_of_showsEntry hshows
    rw [hadded, hremoved]
    simp only [Option.mem_def, summarizeJournal] at hsummary
    split at hsummary
    · cases hsummary
    · cases hsummary
      simp only [List.map_map, Function.comp_def, and_self]

/-- A journal with an edit that removes a comment of a query. -/
def commentJournal : FileEditJournal where
  entries := [⟨"a.sql".toList, "-- x".toList, []⟩]

theorem showsJournal_comment_iff :
    ShowsJournal commentJournal ↔ ∀ entry ∈ commentJournal.entries, IsShown entry :=
  showsJournal_iff commentJournal (by decide)

/-- The comment is taken for the name of a file. -/
theorem not_showsJournal_comment : ¬ShowsJournal commentJournal := by
  intro hshows
  have hpaths : ∀ entry ∈ commentJournal.entries, '\n' ∉ entry.filePath := by decide
  have hshown := (forall₂_showsEntry_iff (parseUnifiedDiff_render hpaths)).mp hshows.files
  have hlines := (hshown _ List.mem_cons_self).lines
  have hold : textLines "-- x".toList = ["-- x".toList] := by decide
  have hop : LcsOp.remove "-- x".toList ∈
      JournalEntry.lcsOps ⟨"a.sql".toList, "-- x".toList, []⟩ := by
    rw [JournalEntry.lcsOps, hold, textLines, if_pos rfl, lcsLineDiff, if_neg (by decide), walk]
    exact List.mem_cons_self
  have hhidden := hlines _ hop
  revert hhidden
  decide

end Flockctl.FileEdits
