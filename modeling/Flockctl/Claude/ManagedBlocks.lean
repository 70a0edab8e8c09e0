import Flockctl.Collections.JsText
import Flockctl.Collections.Occurrences

/-!
# The managed block of an exclude file

The patterns that the daemon wants ignored stand between two markers in `.git/info/exclude`. Each
call takes the block out of the file, together with single lines that are managed patterns, and
appends it anew. From `.gitignore`, where the block once was, it is only taken out.
-/

namespace Flockctl.Claude

open Collections

def GIT_EXCLUDE_BASE_PATTERNS : List (List Char) :=
  [".claude/skills/".toList, ".mcp.json".toList, ".flockctl/.skills-reconcile".toList,
    ".flockctl/.mcp-reconcile".toList, ".flockctl/.agents-reconcile".toList,
    ".flockctl/import-backup/".toList, ".flockctl/plan/".toList]

def GIT_EXCLUDE_FLOCKCTL_PATTERN : List Char := ".flockctl/".toList

def GIT_EXCLUDE_TODO_PATTERN : List Char := "TODO.md".toList

def GIT_EXCLUDE_AGENTS_PATTERNS : List (List Char) := ["AGENTS.md".toList, "CLAUDE.md".toList]

def ALL_MANAGED_PATTERNS : List (List Char) :=
  GIT_EXCLUDE_BASE_PATTERNS ++ [GIT_EXCLUDE_FLOCKCTL_PATTERN] ++ [GIT_EXCLUDE_TODO_PATTERN] ++
    GIT_EXCLUDE_AGENTS_PATTERNS

def GIT_EXCLUDE_BEGIN_MARKER : List Char :=
  "# ─── Flockctl (auto-managed — do not edit) ───".toList

def GIT_EXCLUDE_END_MARKER : List Char := "# ─── /Flockctl ───".toList

structure GitExcludeOptions where
  flockctl : Bool := false
  todo : Bool := false
  agentsMd : Bool := false
  deriving DecidableEq, Repr

def buildPatternList (opts : GitExcludeOptions) : List (List Char) :=
  (if opts.flockctl then
    [".claude/skills/".toList, ".mcp.json".toList, GIT_EXCLUDE_FLOCKCTL_PATTERN]
  else GIT_EXCLUDE_BASE_PATTERNS) ++
    (if opts.todo then [GIT_EXCLUDE_TODO_PATTERN] else []) ++
    if opts.agentsMd then GIT_EXCLUDE_AGENTS_PATTERNS else []

def buildFlockctlBlock (opts : GitExcludeOptions) : List Char :=
  ['\n'].intercalate
    (GIT_EXCLUDE_BEGIN_MARKER :: buildPatternList opts ++ [GIT_EXCLUDE_END_MARKER])

def isLineFeed (c : Char) : Bool := c == '\n'

/-- `content.replace(MANAGED_BLOCK_REGEX, "\n")`. A match starts with the line feeds in front of a
begin marker, goes on to the next end marker and takes the line feeds behind it. -/
def replaceBlocks : ℕ → List Char → List Char
  | 0, content => content
  | fuel + 1, content =>
    match cutAt content GIT_EXCLUDE_BEGIN_MARKER with
    | none => content
    | some (before, inside) =>
      match cutAt inside GIT_EXCLUDE_END_MARKER with
      | none => content
      | some (_, behind) =>
        before.rdropWhile isLineFeed ++
          '\n' :: replaceBlocks fuel (behind.dropWhile isLineFeed)

def withoutBlock (content : List Char) : List Char := replaceBlocks content.length content

def isManaged (line : List Char) : Bool := ALL_MANAGED_PATTERNS.contains (trim line)

def stripManagedSections (content : List Char) : List Char :=
  ['\n'].intercalate (((withoutBlock content).splitOn '\n').filter (!isManaged ·))

/-- `text.replace(/\s+$/, "")`. -/
def trimEnd (text : List Char) : List Char := text.rdropWhile isWhitespace

/-- The files that a call edits; `none` for one that does not exist. -/
structure IgnoreFiles where
  gitignore : Option (List Char)
  exclude : Option (List Char)
  deriving DecidableEq, Repr

/-- What `stripLegacyGitignoreBlock` leaves of a file. -/
def stripLegacyGitignoreBlock (current : List Char) : List Char :=
  let trimmed := trimEnd (stripManagedSections current)
  if trimmed = [] then [] else trimmed ++ ['\n']

/-- What `ensureGitExclude` makes of the exclude file. -/
def nextExclude (opts : GitExcludeOptions) (current : List Char) : List Char :=
  let trimmed := trimEnd (stripManagedSections current)
  (if trimmed = [] then [] else trimmed ++ ['\n', '\n']) ++ buildFlockctlBlock opts ++ ['\n']

/-- A call on the directory of a git checkout. A file that is to get the content it has is not
written, which makes no difference to its content. -/
def ensureGitExclude (files : IgnoreFiles) (opts : GitExcludeOptions) : IgnoreFiles where
  gitignore := files.gitignore.map stripLegacyGitignoreBlock
  exclude := some (nextExclude opts (files.exclude.getD []))

end Flockctl.Claude

/-!
# Complete managed blocks

A marker line holds a marker and white space. A begin line and the next marker line make a complete
block when the latter is an end line, and all other lines are outside. A begin marker that no end
marker follows is left alone when blocks are replaced; after the replacement there is no other one.
-/

namespace Flockctl.Claude

open Collections

def isBegin (line : List Char) : Bool := trim line == GIT_EXCLUDE_BEGIN_MARKER

def isEnd (line : List Char) : Bool := trim line == GIT_EXCLUDE_END_MARKER

def isMarker (line : List Char) : Bool := isBegin line || isEnd line

/-- The number of lines behind the first one in a complete block that starts with it. -/
def blockLength : List (List Char) → Option ℕ
  | [] => none
  | line :: rest =>
    let inner := rest.takeWhile (!isMarker ·)
    if isBegin line && rest[inner.length]?.any isEnd then some (inner.length + 1) else none

/-- The lines outside of complete blocks, each with the lines behind it, once so many lines are
passed over. -/
def outsideTails : ℕ → List (List Char) → List (List Char × List (List Char))
  | _, [] => []
  | skip + 1, _ :: rest => outsideTails skip rest
  | 0, line :: rest =>
    match blockLength (line :: rest) with
    | some n => outsideTails n rest
    | none => (line, rest) :: outsideTails 0 rest

def outside (lines : List (List Char)) : List (List Char) := (outsideTails 0 lines).map Prod.fst

/-- The lines between the markers of each complete block. -/
def blocks : ℕ → List (List Char) → List (List (List Char))
  | _, [] => []
  | skip + 1, _ :: rest => blocks skip rest
  | 0, line :: rest =>
    match blockLength (line :: rest) with
    | some n => rest.take (n - 1) :: blocks n rest
    | none => blocks 0 rest

theorem outsideTails_eq_drop (skip : ℕ) (lines : List (List Char)) :
    outsideTails skip lines = outsideTails 0 (lines.drop skip) := by
  induction skip generalizing lines with
  | zero => rw [List.drop_zero]
  | succ skip ih =>
    cases lines with
    | nil => rfl
    | cons line rest => rw [outsideTails, ih, List.drop_succ_cons]

theorem blocks_eq_drop (skip : ℕ) (lines : List (List Char)) :
    blocks skip lines = blocks 0 (lines.drop skip) := by
  induction skip generalizing lines with
  | zero => rw [List.drop_zero]
  | succ skip ih =>
    cases lines with
    | nil => rfl
    | cons line rest => rw [blocks, ih, List.drop_succ_cons]

theorem exists_of_blockLength {lines : List (List Char)} {n : ℕ} (h : blockLength lines = some n) :
    ∃ first inner last rest, lines = first :: (inner ++ last :: rest) ∧ isBegin first = true ∧
      isEnd last = true ∧ ∀ line ∈ inner, isMarker line = false := by
  cases lines with
  | nil => cases h
  | cons first others =>
    simp only [blockLength, ite_eq_iff, reduceCtorEq, and_false, or_false, Bool.and_eq_true,
      Option.any_eq_true] at h
    obtain ⟨⟨hbegin, last, hlast, hend⟩, -⟩ := h
    obtain ⟨hbound, hget⟩ := List.getElem?_eq_some_iff.mp hlast
    refine ⟨first, others.takeWhile (!isMarker ·), last,
      others.drop ((others.takeWhile (!isMarker ·)).length + 1), ?_, hbegin, hend, ?_⟩
    · have hdrop := List.drop_eq_getElem_cons hbound
      rw [hget] at hdrop
      rw [← hdrop, ← List.prefix_append_drop (List.takeWhile_prefix _)]
    · intro line hline
      have hfree := List.mem_takeWhile_imp hline
      simpa using hfree

section

variable {first last : List Char} {inner : List (List Char)} (hfirst : isBegin first = true)
  (hlast : isEnd last = true) (hinner : ∀ line ∈ inner, isMarker line = false)

include hfirst hlast hinner

theorem blockLength_of_block (rest : List (List Char)) :
    blockLength (first :: (inner ++ last :: rest)) = some (inner.length + 1) := by
  have hmarker : isMarker last = true := by
    rw [isMarker, hlast, Bool.or_true]
  have htake : (inner ++ last :: rest).takeWhile (!isMarker ·) = inner := by
    rw [List.takeWhile_append_of_pos (fun line hline ↦ by rw [hinner line hline, Bool.not_false]),
      List.takeWhile_cons_of_neg (by rw [hmarker]; exact Bool.false_ne_true), List.append_nil]
  simp only [blockLength, htake, hfirst, Bool.true_and]
  rw [List.getElem?_append_right (Nat.le_refl _), Nat.sub_self, List.getElem?_cons_zero,
    Option.any_some, if_pos hlast]

theorem outsideTails_block (rest : List (List Char)) :
    outsideTails 0 (first :: (inner ++ last :: rest)) = outsideTails 0 rest := by
  rw [outsideTails, blockLength_of_block hfirst hlast hinner]
  dsimp only
  rw [outsideTails_eq_drop, ← List.drop_drop, List.drop_left, List.drop_one, List.tail_cons]

theorem blocks_block (rest : List (List Char)) :
    blocks 0 (first :: (inner ++ last :: rest)) = inner :: blocks 0 rest := by
  rw [blocks, blockLength_of_block hfirst hlast hinner]
  dsimp only
  rw [blocks_eq_drop, ← List.drop_drop, List.drop_left, List.drop_one, List.tail_cons,
    Nat.add_sub_cancel, List.take_left]

end

theorem outsideTails_line {line : List Char} {rest : List (List Char)}
    (h : blockLength (line :: rest) = none) :
    outsideTails 0 (line :: rest) = (line, rest) :: outsideTails 0 rest := by
  rw [outsideTails, h]

theorem blocks_line {line : List Char} {rest : List (List Char)}
    (h : blockLength (line :: rest) = none) : blocks 0 (line :: rest) = blocks 0 rest := by
  rw [blocks, h]

/-- Lines are taken apart into blocks and lines outside. -/
@[elab_as_elim]
theorem sections_induction {motive : List (List Char) → Prop} (lines : List (List Char))
    (nil : motive [])
    (block : ∀ first inner last rest, isBegin first = true → isEnd last = true →
      (∀ line ∈ inner, isMarker line = false) → motive rest →
      motive (first :: (inner ++ last :: rest)))
    (line : ∀ line rest, blockLength (line :: rest) = none → motive rest → motive (line :: rest)) :
    motive lines := by
  induction hlength : lines.length using Nat.strong_induction_on generalizing lines with
  | _ n ih =>
    cases hblock : blockLength lines with
    | none =>
      cases lines with
      | nil => exact nil
      | cons first rest =>
        rw [List.length_cons] at hlength
        exact line first rest hblock (ih rest.length (by omega) rest rfl)
    | some m =>
      obtain ⟨first, inner, last, rest, rfl, hfirst, hlast, hinner⟩ := exists_of_blockLength hblock
      simp only [List.length_cons, List.length_append] at hlength
      exact block first inner last rest hfirst hlast hinner (ih rest.length (by omega) rest rfl)

theorem outside_sublist (lines : List (List Char)) : (outside lines).Sublist lines := by
  induction lines using sections_induction with
  | nil => exact List.Sublist.slnil
  | block first inner last rest hfirst hlast hinner ih =>
    rw [outside, outsideTails_block hfirst hlast hinner]
    have hrest := (ih.cons last).trans (List.sublist_append_right inner (last :: rest))
    exact hrest.cons first
  | line line rest hline ih =>
    rw [outside, outsideTails_line hline, List.map_cons]
    exact ih.cons_cons line

theorem blockLength_of_not_begin {line : List Char} (h : isBegin line = false)
    (rest : List (List Char)) : blockLength (line :: rest) = none := by
  simp only [blockLength, h, Bool.false_and, Bool.false_eq_true, if_false]

/-- No block starts on lines without a begin line. -/
theorem outside_append {front : List (List Char)} (hfront : ∀ line ∈ front, isBegin line = false)
    (back : List (List Char)) : outside (front ++ back) = front ++ outside back := by
  induction front with
  | nil => rfl
  | cons line rest ih =>
    have hline := blockLength_of_not_begin (hfront line List.mem_cons_self) (rest ++ back)
    rw [List.cons_append, outside, outsideTails_line hline, List.map_cons]
    exact congrArg (line :: ·) (ih fun other hother ↦ hfront other (List.mem_cons_of_mem _ hother))

theorem blocks_append {front : List (List Char)} (hfront : ∀ line ∈ front, isBegin line = false)
    (back : List (List Char)) : blocks 0 (front ++ back) = blocks 0 back := by
  induction front with
  | nil => rfl
  | cons line rest ih =>
    have hline := blockLength_of_not_begin (hfront line List.mem_cons_self) (rest ++ back)
    rw [List.cons_append, blocks_line hline]
    exact ih fun other hother ↦ hfront other (List.mem_cons_of_mem _ hother)

/-- Where no end line comes behind a begin line, all lines are outside. -/
theorem outside_of_pairwise {lines : List (List Char)}
    (h : lines.Pairwise fun first later ↦ isBegin first = true → isEnd later = false) :
    outside lines = lines := by
  induction lines with
  | nil => rfl
  | cons line rest ih =>
    rw [List.pairwise_cons] at h
    have hline : blockLength (line :: rest) = none := by
      cases hblock : blockLength (line :: rest) with
      | none => rfl
      | some n =>
        obtain ⟨first, inner, last, others, heq, hfirst, hlast, -⟩ := exists_of_blockLength hblock
        obtain ⟨rfl, rfl⟩ := List.cons.inj heq
        have hmem : last ∈ inner ++ last :: others := List.mem_append_right _ List.mem_cons_self
        rw [h.1 last hmem hfirst] at hlast
        cases hlast
    rw [outside, outsideTails_line hline, List.map_cons]
    exact congrArg (line :: ·) (ih h.2)

end Flockctl.Claude
