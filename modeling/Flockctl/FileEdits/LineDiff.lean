import Flockctl.Collections.CommonSubsequence
import Flockctl.Collections.JsText
import Flockctl.FileEdits.Journal
import Mathlib.Algebra.GroupWithZero.Nat

/-!
# The diff of a journal

The texts of an entry are compared line by line: a grid, kept in one flat buffer and filled from its
last cell back, holds the lengths of the longest common subsequences of all suffixes, and a walk
from its first cell on gives the lines in order. Above a number of cells all old lines count as
removed and all new ones as added.
-/

namespace Flockctl.FileEdits

open Collections

/-! ## The grid -/

/-- The number of cells above which nothing is compared. -/
def maxCells : ℕ := 250000

section

variable {α : Type} [DecidableEq α] (a b : List α)

/-- A flat buffer. -/
abbrev Grid := ℕ → ℕ

def stride : ℕ := b.length + 1

/-- What is written into the cell of row `i` and column `j`. -/
def cellValue (dp : Grid) (i j : ℕ) : ℕ :=
  if a[i]? = b[j]? then dp ((i + 1) * stride b + j + 1) + 1
  else max (dp ((i + 1) * stride b + j)) (dp (i * stride b + j + 1))

/-- Row `i`, from the column before `j` back to the first. -/
def fillRow (i : ℕ) : ℕ → Grid → Grid
  | 0, dp => dp
  | j + 1, dp => fillRow i j (Function.update dp (i * stride b + j) (cellValue a b dp i j))

/-- The rows from the one before `i` back to the first. -/
def fillRows : ℕ → Grid → Grid
  | 0, dp => dp
  | i + 1, dp => fillRows i (fillRow a b i b.length dp)

def lcsGrid : Grid := fillRows a b a.length fun _ ↦ 0

structure LineDelta where
  added : ℕ
  removed : ℕ
  deriving DecidableEq

/-- `countLcsDelta` on the lines of two texts. -/
def countLcsDelta : LineDelta :=
  if a.length * b.length > maxCells then { added := b.length, removed := a.length }
  else
    let common := lcsGrid a b 0
    { added := b.length - common, removed := a.length - common }

inductive LcsOp (α : Type)
  | context (text : α)
  | add (text : α)
  | remove (text : α)
  deriving DecidableEq

/-- The walk from row `i` and column `j`, with the lines from there on. -/
def walk (dp : Grid) (width : ℕ) : ℕ → ℕ → List α → List α → List (LcsOp α)
  | i, j, x :: xs, y :: ys =>
    if x = y then .context x :: walk dp width (i + 1) (j + 1) xs ys
    else if dp ((i + 1) * width + j) ≥ dp (i * width + j + 1) then
      .remove x :: walk dp width (i + 1) j xs (y :: ys)
    else .add y :: walk dp width i (j + 1) (x :: xs) ys
  | _, _, xs, [] => xs.map .remove
  | _, _, [], ys => ys.map .add
  termination_by _ _ xs ys => xs.length + ys.length

def lcsLineDiff : List (LcsOp α) :=
  if a.length * b.length > maxCells then a.map .remove ++ b.map .add
  else walk (lcsGrid a b) (stride b) 0 0 a b

end

/-! ## The summary and the text -/

/-- `text === "" ? [] : text.split("\n")`. -/
def textLines (text : List Char) : List (List Char) :=
  if text = [] then [] else text.splitOn '\n'

structure JournalSummary where
  files : ℕ
  added : ℕ
  removed : ℕ
  text : String
  deriving DecidableEq

def summarizeJournal (j : FileEditJournal) : Option JournalSummary :=
  if j.entries.length = 0 then none
  else
    let files := (j.entries.map (·.filePath)).dedup.length
    let deltas := j.entries.map fun e ↦ countLcsDelta (textLines e.original) (textLines e.current)
    let added := (deltas.map (·.added)).sum
    let removed := (deltas.map (·.removed)).sum
    let plural := if files = 1 then "" else "s"
    some
      { files, added, removed
        text := toString files ++ " file" ++ plural ++ " changed, +" ++ toString added ++ " / -" ++
          toString removed }

/-- A line of the body of a hunk. -/
def LcsOp.line : LcsOp (List Char) → List Char
  | .context text => ' ' :: text
  | .remove text => '-' :: text
  | .add text => '+' :: text

def decimal (n : ℕ) : List Char := Nat.toDigits 10 n

def hunkHeader (oldLen newLen : ℕ) : List Char :=
  "@@ -".toList ++ (if oldLen = 0 then ['0'] else ['1']) ++ ',' :: decimal oldLen ++
    " +".toList ++ (if newLen = 0 then ['0'] else ['1']) ++ ',' :: decimal newLen ++ " @@".toList

/-- The lines of the body of an entry's hunk. -/
def hunkBody (entry : JournalEntry) : List (List Char) :=
  (lcsLineDiff (textLines entry.original) (textLines entry.current)).map LcsOp.line

def fileHeader (filePath : List Char) : List (List Char) :=
  ["diff --git a/".toList ++ filePath ++ " b/".toList ++ filePath,
    "--- a/".toList ++ filePath, "+++ b/".toList ++ filePath]

/-- `lines.join("\n")`. -/
def joinLines (lines : List (List Char)) : List Char := ['\n'].intercalate lines

def synthesizeDiff (entry : JournalEntry) : List Char :=
  joinLines (fileHeader entry.filePath ++
    hunkHeader (textLines entry.original).length (textLines entry.current).length ::
      hunkBody entry)

def renderJournalAsUnifiedDiff (j : FileEditJournal) : List Char :=
  joinLines (j.entries.map synthesizeDiff)

/-! ## What the grid holds -/

section

variable {α : Type} [DecidableEq α] {a b : List α}

/-- From row `i` and column `j` on, in the order of filling, a cell holds the length of a longest
common subsequence of the suffixes at its place; so do the cells of the last column. -/
def FilledFrom (a b : List α) (dp : Grid) (i j : ℕ) : Prop :=
  ∀ row column, column ≤ b.length → (i < row ∨ row = i ∧ j ≤ column ∨ column = b.length) →
    dp (row * stride b + column) = lcsLength (a.drop row) (b.drop column)

omit [DecidableEq α] in
theorem flat_inj {row column i j : ℕ} (hcolumn : column ≤ b.length) (hj : j ≤ b.length)
    (h : row * stride b + column = i * stride b + j) : row = i ∧ column = j := by
  have hmod : column = j := by
    have hmods := congrArg (· % stride b) h
    simpa [stride, Nat.mul_add_mod', Nat.mod_eq_of_lt, Nat.lt_succ_of_le, hcolumn, hj] using hmods
  subst hmod
  have hrows : row * stride b = i * stride b := Nat.add_right_cancel h
  exact ⟨Nat.eq_of_mul_eq_mul_right (Nat.succ_pos _) hrows, rfl⟩

theorem cellValue_eq {dp : Grid} {i j : ℕ} (h : FilledFrom a b dp i (j + 1))
    (hi : i < a.length) (hj : j < b.length) :
    cellValue a b dp i j = lcsLength (a.drop i) (b.drop j) := by
  have hdiagonal := h (i + 1) (j + 1) hj (Or.inl (Nat.lt_succ_self i))
  have hbelow := h (i + 1) j hj.le (Or.inl (Nat.lt_succ_self i))
  have hright := h i (j + 1) hj (Or.inr (Or.inl ⟨rfl, le_refl _⟩))
  rw [← Nat.add_assoc] at hdiagonal hright
  rw [cellValue, hdiagonal, hbelow, hright, List.getElem?_eq_getElem hi,
    List.getElem?_eq_getElem hj, List.drop_eq_getElem_cons hi, List.drop_eq_getElem_cons hj,
    lcsLength]
  simp only [Option.some.injEq]

theorem FilledFrom.write {dp : Grid} {i j : ℕ} (h : FilledFrom a b dp i (j + 1))
    (hi : i < a.length) (hj : j < b.length) :
    FilledFrom a b (Function.update dp (i * stride b + j) (cellValue a b dp i j)) i j := by
  intro row column hcolumn hplace
  by_cases hcell : row = i ∧ column = j
  · obtain ⟨rfl, rfl⟩ := hcell
    rw [Function.update_self, cellValue_eq h hi hj]
  · rw [Function.update_of_ne fun hflat ↦ hcell (flat_inj hcolumn hj.le hflat)]
    apply h row column hcolumn
    omega

theorem FilledFrom.fillRow {dp : Grid} {i j : ℕ} (h : FilledFrom a b dp i j) (hi : i < a.length)
    (hj : j ≤ b.length) : FilledFrom a b (fillRow a b i j dp) i 0 := by
  induction j generalizing dp with
  | zero => exact h
  | succ j ih => exact ih (h.write hi hj) (Nat.le_of_succ_le hj)

theorem FilledFrom.fillRows {dp : Grid} {i : ℕ} (h : FilledFrom a b dp i 0)
    (hi : i ≤ a.length) : FilledFrom a b (fillRows a b i dp) 0 0 := by
  induction i generalizing dp with
  | zero => exact h
  | succ i ih =>
    have hnext : FilledFrom a b dp i b.length := by
      intro row column hcolumn hplace
      apply h row column hcolumn
      omega
    exact ih (hnext.fillRow hi (le_refl _)) (Nat.le_of_succ_le hi)

theorem lcsGrid_eq (row column : ℕ) (hcolumn : column ≤ b.length) :
    lcsGrid a b (row * stride b + column) = lcsLength (a.drop row) (b.drop column) := by
  have hempty : FilledFrom a b (fun _ ↦ 0) a.length 0 := by
    intro row column _ hplace
    by_cases hrow : a.length ≤ row
    · rw [List.drop_eq_nil_of_le hrow, lcsLength_nil_left]
    · rw [List.drop_eq_nil_of_le (show b.length ≤ column by omega), lcsLength_nil_right]
  exact hempty.fillRows (le_refl _) row column hcolumn (by omega)

/-! ## The lines of the walk -/

def LcsOp.oldLine : LcsOp α → Option α
  | .context text => some text
  | .remove text => some text
  | .add _ => none

def LcsOp.newLine : LcsOp α → Option α
  | .context text => some text
  | .add text => some text
  | .remove _ => none

def LcsOp.isContext : LcsOp α → Bool
  | .context _ => true
  | _ => false

/-- Operations that turn one list of lines into another, in order. -/
structure Turns (ops : List (LcsOp α)) (old new : List α) : Prop where
  old_lines : ops.filterMap LcsOp.oldLine = old
  new_lines : ops.filterMap LcsOp.newLine = new

omit [DecidableEq α] in
theorem turns_remove (old : List α) : Turns (old.map .remove) old [] := by
  constructor
  · rw [List.filterMap_map]
    exact List.filterMap_some
  · rw [List.filterMap_map]
    exact List.filterMap_eq_nil_iff.mpr fun _ _ ↦ rfl

omit [DecidableEq α] in
theorem turns_add (new : List α) : Turns (new.map .add) [] new := by
  constructor
  · rw [List.filterMap_map]
    exact List.filterMap_eq_nil_iff.mpr fun _ _ ↦ rfl
  · rw [List.filterMap_map]
    exact List.filterMap_some

omit [DecidableEq α] in
theorem Turns.append {ops rest : List (LcsOp α)} {old old' new new' : List α}
    (h : Turns ops old new) (hrest : Turns rest old' new') :
    Turns (ops ++ rest) (old ++ old') (new ++ new') := by
  constructor
  · rw [List.filterMap_append, h.old_lines, hrest.old_lines]
  · rw [List.filterMap_append, h.new_lines, hrest.new_lines]

omit [DecidableEq α] in
theorem Turns.cons {ops : List (LcsOp α)} {old new : List α} (op : LcsOp α)
    (h : Turns ops old new) :
    Turns (op :: ops) (op.oldLine.toList ++ old) (op.newLine.toList ++ new) := by
  have hop : Turns [op] op.oldLine.toList op.newLine.toList := by
    cases op <;> exact ⟨rfl, rfl⟩
  exact hop.append h

theorem turns_walk (dp : Grid) (width i j : ℕ) (xs ys : List α) :
    Turns (walk dp width i j xs ys) xs ys := by
  fun_induction walk dp width i j xs ys with
  | case1 i j xs y ys ih => exact ih.cons (.context y)
  | case2 i j x xs y ys hne hge ih => exact ih.cons (.remove x)
  | case3 i j x xs y ys hne hlt ih => exact ih.cons (.add y)
  | case4 i j xs => exact turns_remove xs
  | case5 i j ys => exact turns_add ys

omit [DecidableEq α] in
theorem tail_drop {xs rest : List α} {x : α} {i : ℕ} (h : xs.drop i = x :: rest) :
    xs.drop (i + 1) = rest := by
  rw [← List.drop_drop, h, List.drop_succ_cons, List.drop_zero]

omit [DecidableEq α] in
theorem column_lt {ys rest : List α} {y : α} {j : ℕ} (h : ys.drop j = y :: rest) :
    j < ys.length := by
  by_contra hge
  rw [List.drop_eq_nil_of_le (Nat.le_of_not_lt hge)] at h
  cases h

/-- On a right grid the walk keeps as many lines as a longest common subsequence has. -/
theorem countP_isContext_walk {dp : Grid} {i j : ℕ}
    (hdp : ∀ row column, column ≤ b.length →
      dp (row * stride b + column) = lcsLength (a.drop row) (b.drop column)) (xs ys : List α)
    (hxs : a.drop i = xs) (hys : b.drop j = ys) :
    (walk dp (stride b) i j xs ys).countP LcsOp.isContext = lcsLength xs ys := by
  fun_induction walk dp (stride b) i j xs ys with
  | case1 i j xs y ys ih =>
    rw [List.countP_cons_of_pos rfl, lcsLength, if_pos rfl, ih (tail_drop hxs) (tail_drop hys)]
  | case2 i j x xs y ys hne hge ih =>
    have hcolumn := column_lt hys
    rw [hdp (i + 1) j hcolumn.le, Nat.add_assoc, hdp i (j + 1) hcolumn, tail_drop hxs, hxs,
      hys, tail_drop hys] at hge
    rw [List.countP_cons_of_neg Bool.false_ne_true, lcsLength, if_neg hne, max_eq_left hge,
      ih (tail_drop hxs) hys]
  | case3 i j x xs y ys hne hlt ih =>
    have hcolumn := column_lt hys
    rw [hdp (i + 1) j hcolumn.le, Nat.add_assoc, hdp i (j + 1) hcolumn, tail_drop hxs, hxs,
      hys, tail_drop hys] at hlt
    rw [List.countP_cons_of_neg Bool.false_ne_true, lcsLength, if_neg hne,
      max_eq_right (Nat.le_of_not_le hlt), ih hxs (tail_drop hys)]
  | case4 i j xs =>
    rw [lcsLength_nil_right, List.countP_map]
    exact List.countP_eq_zero.mpr fun _ _ ↦ Bool.false_ne_true
  | case5 i j ys =>
    rw [lcsLength_nil_left, List.countP_map]
    exact List.countP_eq_zero.mpr fun _ _ ↦ Bool.false_ne_true

theorem lcsGrid_zero (a b : List α) : lcsGrid a b 0 = lcsLength a b := by
  have h := lcsGrid_eq (a := a) (b := b) 0 0 (Nat.zero_le _)
  simpa using h

theorem turns_lcsLineDiff (a b : List α) : Turns (lcsLineDiff a b) a b := by
  rw [lcsLineDiff]
  split_ifs
  · simpa using (turns_remove a).append (turns_add b)
  · exact turns_walk _ _ 0 0 a b

theorem countP_isContext_lcsLineDiff {a b : List α} (h : a.length * b.length ≤ maxCells) :
    (lcsLineDiff a b).countP LcsOp.isContext = lcsLength a b := by
  rw [lcsLineDiff, if_neg (Nat.not_lt_of_le h)]
  exact countP_isContext_walk lcsGrid_eq a b rfl rfl

end

/-! ## The summary against the text -/

/-- Two counts of a list where every element counts at most once. -/
theorem countP_add_countP {β : Type} {p q r : β → Bool} (l : List β)
    (h : ∀ x, (if p x then 1 else 0) + (if q x then 1 else 0) = if r x then 1 else 0) :
    l.countP p + l.countP q = l.countP r := by
  induction l with
  | nil => rfl
  | cons x l ih =>
    have hx := h x
    rw [List.countP_cons, List.countP_cons, List.countP_cons]
    omega

/-- Whether a line of a body carries a mark. -/
def isMarked (mark : Char) (line : List Char) : Bool := line.head? == some mark

section

variable (ops : List (LcsOp (List Char)))

theorem countP_old :
    (ops.map LcsOp.line).countP (fun line ↦ isMarked ' ' line || isMarked '-' line) =
      (ops.filterMap LcsOp.oldLine).length := by
  rw [List.countP_map, List.length_filterMap_eq_countP]
  apply List.countP_congr
  rintro (text | text | text) - <;> simp [LcsOp.line, LcsOp.oldLine, isMarked]

theorem countP_new :
    (ops.map LcsOp.line).countP (fun line ↦ isMarked ' ' line || isMarked '+' line) =
      (ops.filterMap LcsOp.newLine).length := by
  rw [List.countP_map, List.length_filterMap_eq_countP]
  apply List.countP_congr
  rintro (text | text | text) - <;> simp [LcsOp.line, LcsOp.newLine, isMarked]

theorem countP_added : (ops.map LcsOp.line).countP (isMarked '+') + ops.countP LcsOp.isContext =
    (ops.filterMap LcsOp.newLine).length := by
  rw [List.countP_map, List.length_filterMap_eq_countP]
  apply countP_add_countP
  rintro (text | text | text) <;> rfl

theorem countP_removed : (ops.map LcsOp.line).countP (isMarked '-') + ops.countP LcsOp.isContext =
    (ops.filterMap LcsOp.oldLine).length := by
  rw [List.countP_map, List.length_filterMap_eq_countP]
  apply countP_add_countP
  rintro (text | text | text) <;> rfl

end

/-- The counts of an entry are those of the marked lines of its hunk. -/
theorem countLcsDelta_eq (entry : JournalEntry) :
    countLcsDelta (textLines entry.original) (textLines entry.current) =
      { added := (hunkBody entry).countP (isMarked '+')
        removed := (hunkBody entry).countP (isMarked '-') } := by
  have hturns := turns_lcsLineDiff (textLines entry.original) (textLines entry.current)
  have hadded := countP_added (lcsLineDiff (textLines entry.original) (textLines entry.current))
  have hremoved :=
    countP_removed (lcsLineDiff (textLines entry.original) (textLines entry.current))
  rw [hturns.new_lines] at hadded
  rw [hturns.old_lines] at hremoved
  rw [countLcsDelta, hunkBody]
  split_ifs with hlarge
  · have hcontext : (lcsLineDiff (textLines entry.original) (textLines entry.current)).countP
        LcsOp.isContext = 0 := by
      rw [lcsLineDiff, if_pos hlarge]
      simp [LcsOp.isContext, Function.comp_def]
    rw [hcontext, Nat.add_zero] at hadded hremoved
    rw [hadded, hremoved]
  · rw [countP_isContext_lcsLineDiff (Nat.le_of_not_lt hlarge), ← lcsGrid_zero] at hadded hremoved
    simp only [LineDelta.mk.injEq]
    omega

/-- The header of a hunk with the counts of its lines. -/
theorem hunkHeader_eq (entry : JournalEntry) :
    hunkHeader (textLines entry.original).length (textLines entry.current).length =
      hunkHeader
        ((hunkBody entry).countP fun line ↦ isMarked ' ' line || isMarked '-' line)
        ((hunkBody entry).countP fun line ↦ isMarked ' ' line || isMarked '+' line) := by
  have hturns := turns_lcsLineDiff (textLines entry.original) (textLines entry.current)
  rw [hunkBody, countP_old, countP_new, hturns.old_lines, hturns.new_lines]

/-! ## The lines of the text -/

theorem not_mem_textLines {text line : List Char} (h : line ∈ textLines text) : '\n' ∉ line := by
  rw [textLines] at h
  split_ifs at h
  · cases h
  · exact not_mem_of_mem_splitOn h

theorem mem_of_turns {ops : List (LcsOp (List Char))} {old new : List (List Char)}
    (h : Turns ops old new) {op : LcsOp (List Char)} (hop : op ∈ ops) :
    ∃ mark ∈ [' ', '-', '+'], ∃ text ∈ old ++ new, op.line = mark :: text := by
  have hold : ∀ text, op.oldLine = some text → text ∈ old ++ new := by
    intro text htext
    rw [← h.old_lines]
    exact List.mem_append_left _ (List.mem_filterMap.mpr ⟨op, hop, htext⟩)
  have hnew : ∀ text, op.newLine = some text → text ∈ old ++ new := by
    intro text htext
    rw [← h.new_lines]
    exact List.mem_append_right _ (List.mem_filterMap.mpr ⟨op, hop, htext⟩)
  cases op with
  | context text => exact ⟨' ', by simp, text, hold text rfl, rfl⟩
  | add text => exact ⟨'+', by simp, text, hnew text rfl, rfl⟩
  | remove text => exact ⟨'-', by simp, text, hold text rfl, rfl⟩

/-- A line of a body is one line of the text. -/
theorem splitOn_of_mem_hunkBody {entry : JournalEntry} {line : List Char}
    (h : line ∈ hunkBody entry) : line.splitOn '\n' = [line] := by
  obtain ⟨op, hop, rfl⟩ := List.mem_map.mp h
  obtain ⟨mark, hmark, text, htext, hline⟩ :=
    mem_of_turns (turns_lcsLineDiff (textLines entry.original) (textLines entry.current)) hop
  have hbreak : '\n' ∉ text := by
    rcases List.mem_append.mp htext with hold | hnew
    · exact not_mem_textLines hold
    · exact not_mem_textLines hnew
  have hplain : '\n' ≠ mark := by
    rintro rfl
    simp at hmark
  apply List.splitOn_eq_singleton
  rw [hline, List.mem_cons, not_or]
  exact ⟨hplain, hbreak⟩

theorem not_mem_decimal (n : ℕ) : '\n' ∉ decimal n := by
  intro hmem
  have hdigit := Nat.isDigit_of_mem_toDigits (b := 10) (by omega) (by omega) hmem
  revert hdigit
  decide

theorem not_mem_hunkHeader (oldLen newLen : ℕ) : '\n' ∉ hunkHeader oldLen newLen := by
  have hstart : ∀ len : ℕ, '\n' ∉ (if len = 0 then ['0'] else ['1']) := by
    intro len
    split_ifs <;> decide
  have hcount : ∀ n, '\n' ∉ ',' :: decimal n := by
    intro n
    rw [List.mem_cons, not_or]
    exact ⟨by decide, not_mem_decimal n⟩
  have hopen : '\n' ∉ "@@ -".toList := by decide +kernel
  have hplus : '\n' ∉ " +".toList := by decide +kernel
  have hclose : '\n' ∉ " @@".toList := by decide +kernel
  unfold hunkHeader
  rw [List.mem_append, List.mem_append, List.mem_append, List.mem_append, List.mem_append,
    List.mem_append]
  rintro ((((((h | h) | h) | h) | h) | h) | h)
  · exact hopen h
  · exact hstart oldLen h
  · exact hcount oldLen h
  · exact hplus h
  · exact hstart newLen h
  · exact hcount newLen h
  · exact hclose h

theorem splitOn_hunkHeader (oldLen newLen : ℕ) :
    (hunkHeader oldLen newLen).splitOn '\n' = [hunkHeader oldLen newLen] :=
  List.splitOn_eq_singleton (not_mem_hunkHeader oldLen newLen)

/-- The text, line by line: for each entry the lines of its names, one hunk header with the counts
of the lines in its body, and the body. -/
theorem lines_renderJournalAsUnifiedDiff {j : FileEditJournal} (h : j.entries ≠ []) :
    (renderJournalAsUnifiedDiff j).splitOn '\n' = j.entries.flatMap fun entry ↦
      (fileHeader entry.filePath).flatMap (·.splitOn '\n') ++
        hunkHeader
          ((hunkBody entry).countP fun line ↦ isMarked ' ' line || isMarked '-' line)
          ((hunkBody entry).countP fun line ↦ isMarked ' ' line || isMarked '+' line) ::
        hunkBody entry := by
  have hbody : ∀ entry, (hunkBody entry).flatMap (·.splitOn '\n') = hunkBody entry := by
    intro entry
    calc (hunkBody entry).flatMap (·.splitOn '\n') = (hunkBody entry).flatMap fun line ↦ [line] :=
        List.flatMap_congr fun line hline ↦ splitOn_of_mem_hunkBody hline
      _ = hunkBody entry := List.flatMap_singleton' _
  rw [renderJournalAsUnifiedDiff, joinLines,
    splitOn_intercalate_flatMap fun hnil ↦ h (List.map_eq_nil_iff.mp hnil), List.flatMap_map]
  apply List.flatMap_congr
  intro entry _
  rw [synthesizeDiff, joinLines, splitOn_intercalate_flatMap (by simp [fileHeader]),
    List.flatMap_append, List.flatMap_cons, hbody, splitOn_hunkHeader, ← hunkHeader_eq,
    List.singleton_append]

/-! ## The law -/

/-- The operations keep the lines of both texts in order, and no common subsequence is longer than
the lines they keep. -/
structure IsMinimalDiff {α : Type} (ops : List (LcsOp α)) (old new : List α) : Prop where
  turns : Turns ops old new
  longest : IsGreatest (commonLengths old new) (ops.countP LcsOp.isContext)

/-- The totals are the numbers of the marked lines in the bodies of the text, and a hunk header
counts the lines of its body. -/
structure SummaryMatches (j : FileEditJournal) : Prop where
  totals : ∀ summary ∈ summarizeJournal j,
    summary.added = (j.entries.flatMap hunkBody).countP (isMarked '+') ∧
      summary.removed = (j.entries.flatMap hunkBody).countP (isMarked '-')
  missing : summarizeJournal j = none → renderJournalAsUnifiedDiff j = []
  lines : j.entries ≠ [] →
    (renderJournalAsUnifiedDiff j).splitOn '\n' = j.entries.flatMap fun entry ↦
      (fileHeader entry.filePath).flatMap (·.splitOn '\n') ++
        hunkHeader
          ((hunkBody entry).countP fun line ↦ isMarked ' ' line || isMarked '-' line)
          ((hunkBody entry).countP fun line ↦ isMarked ' ' line || isMarked '+' line) ::
        hunkBody entry

theorem isMinimalDiff_lcsLineDiff {α : Type} [DecidableEq α] {a b : List α}
    (h : a.length * b.length ≤ maxCells) : IsMinimalDiff (lcsLineDiff a b) a b := by
  refine ⟨turns_lcsLineDiff a b, ?_⟩
  rw [countP_isContext_lcsLineDiff h]
  exact lcsLength_isGreatest a b

theorem summaryMatches (j : FileEditJournal) : SummaryMatches j := by
  refine ⟨?_, ?_, lines_renderJournalAsUnifiedDiff⟩
  · intro summary hsummary
    rw [Option.mem_def, summarizeJournal] at hsummary
    split_ifs at hsummary
    rw [← Option.some.inj hsummary, List.countP_flatMap, List.countP_flatMap]
    simp only [countLcsDelta_eq, List.map_map, Function.comp_def, and_self]
  · intro hnone
    rw [summarizeJournal] at hnone
    split_ifs at hnone with hempty
    rw [renderJournalAsUnifiedDiff, List.length_eq_zero_iff.mp hempty]
    rfl

/-- The diff of two texts is a minimal one, up to the bound on the cells, and the summary of a
journal matches its text. -/
theorem diff_correct (old new : List Char) (j : FileEditJournal) :
    ((textLines old).length * (textLines new).length ≤ maxCells →
      IsMinimalDiff (lcsLineDiff (textLines old) (textLines new)) (textLines old)
        (textLines new)) ∧ SummaryMatches j :=
  ⟨isMinimalDiff_lcsLineDiff, summaryMatches j⟩

end Flockctl.FileEdits
