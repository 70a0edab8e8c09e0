import Flockctl.Collections.JsParse
import Flockctl.Collections.Occurrences
import Flockctl.Git.LogRows

/-!
# The log of a repository

A page of the log is asked for with a limit and the place to start at. Git is asked for one commit
more than the page has room for; where it gives that commit, the page ends in front of it, and its
hash is the cursor for the next page.
-/

namespace Flockctl.GitOperations

open Collections Git

inductive GitReason
  | ok
  | authFailed
  | timeout
  | notARepo
  | pathMissing
  | detachedHead
  | emptyIndex
  | emptyMessage
  | dirtyTree
  | diverged
  | noUpstream
  | rejectedNonFastForward
  | forceRequired
  | protectedBranch
  | unknownPath
  | unknown
  deriving DecidableEq, Repr

structure RunGitCommandResult (Data : Type) where
  ok : Bool
  data : Option Data := none
  reason : GitReason
  message : Option (List Char) := none
  stderr : Option (List Char) := none

structure GitLogCommit where
  sha : List Char
  shortSha : List Char
  author : List Char
  email : List Char
  ts : JsNumber
  subject : List Char
  parents : List (List Char)
  deriving DecidableEq

inductive GitLogReason
  | ok
  | notARepo
  | pathMissing
  | badRevision
  | timeout
  | unknown
  deriving DecidableEq, Repr

structure RunGitLogOptions where
  limit : Option JsNumber := none
  cursor : Option (List Char) := none
  branch : Option (List Char) := none

structure RunGitLogResult where
  ok : Bool
  commits : Option (List GitLogCommit) := none
  nextCursor : Option (List Char) := none
  reason : GitLogReason
  message : Option (List Char) := none
  stderr : Option (List Char) := none

/-- `parentsRaw ? parentsRaw.split(" ").filter(Boolean) : []`. -/
def splitParents (parentsRaw : List Char) : List (List Char) :=
  if parentsRaw = [] then [] else (parentsRaw.splitOn ' ').filter (· ≠ [])

/-- The body of the loop; `none` for a row that is passed over. -/
def parseGitLogLine (line : List Char) : Option GitLogCommit :=
  match line.splitOn '\t' with
  | sha :: author :: email :: atRaw :: parentsRaw :: first :: rest =>
    some {
      sha
      shortSha := sha.take 7
      author
      email
      ts := (parseInt atRaw).finiteOrZero
      subject := ['\t'].intercalate (first :: rest)
      parents := splitParents parentsRaw }
  | _ => none

def parseGitLogOutput (stdout : List Char) : List GitLogCommit :=
  if trim stdout = [] then []
  else ((stdout.splitOn '\n').filter (· ≠ [])).filterMap parseGitLogLine

theorem parseGitLogLine_of_length {line : List Char} (h : 6 ≤ (line.splitOn '\t').length) :
    ∃ commit, parseGitLogLine line = some commit ∧
      some commit.sha = (line.splitOn '\t').head? := by
  rw [parseGitLogLine]
  split
  · rename_i hparts
    exact ⟨_, rfl, by rw [hparts, List.head?_cons]⟩
  · rename_i hshort
    match hparts : line.splitOn '\t' with
    | [] | [_] | [_, _] | [_, _, _] | [_, _, _, _] | [_, _, _, _, _] =>
      rw [hparts] at h
      simp at h
    | sha :: author :: email :: atRaw :: parentsRaw :: first :: rest =>
      exact absurd hparts (hshort _ _ _ _ _ _ _)

section

variable {record : LogRecord (List Char)} (hrecord : record.IsLegal id)

include hrecord

theorem isSha_sha : IsSha record.sha := by
  obtain ⟨text, htext, heq⟩ := hrecord.sha
  rw [← heq]
  exact htext

theorem not_mem_parents {c : Char} (hblank : c ≠ ' ')
    (hc : ¬(c.isDigit = true ∨ ('a' ≤ c ∧ c ≤ 'f'))) : c ∉ [' '].intercalate record.parents := by
  apply not_mem_intercalate
  · rwa [List.mem_singleton]
  · intro parent hparent
    obtain ⟨text, htext, heq⟩ := hrecord.parents parent hparent
    rw [← heq]
    exact htext.not_mem hc

theorem newline_not_mem_row : '\n' ∉ record.row id := by
  obtain ⟨hauthor, hemail, hsubject⟩ := hrecord.oneLine '\n' List.mem_cons_self
  have hseconds : '\n' ∉ Nat.toDigits 10 record.seconds := fun hmem ↦
    absurd (Nat.isDigit_of_mem_toDigits (by decide) (by decide) hmem) (by decide)
  apply not_mem_intercalate
  · decide
  · intro column hcolumn
    simp only [LogRecord.columns, id, List.mem_cons, List.not_mem_nil, or_false] at hcolumn
    rcases hcolumn with rfl | rfl | rfl | rfl | rfl | rfl
    · exact (isSha_sha hrecord).not_mem (by decide)
    · exact hauthor
    · exact hemail
    · exact hseconds
    · exact not_mem_parents hrecord (by decide) (by decide)
    · exact hsubject

/-- Only a tab in a name or in the subject makes more columns. -/
theorem splitOn_row : (record.row id).splitOn '\t' =
    record.sha :: (record.author.splitOn '\t' ++ (record.email.splitOn '\t' ++
      (Nat.toDigits 10 record.seconds :: [' '].intercalate record.parents ::
        record.subject.splitOn '\t'))) := by
  have hsha : record.sha.splitOn '\t' = [record.sha] :=
    List.splitOn_eq_singleton ((isSha_sha hrecord).not_mem (by decide))
  have hseconds : (Nat.toDigits 10 record.seconds).splitOn '\t' =
      [Nat.toDigits 10 record.seconds] :=
    List.splitOn_eq_singleton fun hmem ↦
      absurd (Nat.isDigit_of_mem_toDigits (by decide) (by decide) hmem) (by decide)
  have hparents : ([' '].intercalate record.parents).splitOn '\t' =
      [[' '].intercalate record.parents] :=
    List.splitOn_eq_singleton (not_mem_parents hrecord (by decide) (by decide))
  simp only [LogRecord.row, LogRecord.columns, id]
  rw [splitOn_intercalate_flatMap (List.cons_ne_nil _ _)]
  simp only [List.flatMap_cons, List.flatMap_nil, hsha, hseconds, hparents, List.append_nil,
    List.cons_append, List.nil_append]

/-- Whatever its names and its subject hold, a row gives a commit with its hash. -/
theorem exists_parseGitLogLine_row :
    ∃ commit, parseGitLogLine (record.row id) = some commit ∧ commit.sha = record.sha := by
  have hlength : 6 ≤ ((record.row id).splitOn '\t').length := by
    have hauthor := List.length_pos_of_ne_nil (List.splitOn_ne_nil '\t' record.author)
    have hemail := List.length_pos_of_ne_nil (List.splitOn_ne_nil '\t' record.email)
    have hsubject := List.length_pos_of_ne_nil (List.splitOn_ne_nil '\t' record.subject)
    rw [splitOn_row hrecord]
    simp only [List.length_cons, List.length_append]
    omega
  obtain ⟨commit, hcommit, hsha⟩ := parseGitLogLine_of_length hlength
  rw [splitOn_row hrecord, List.head?_cons] at hsha
  exact ⟨commit, hcommit, Option.some.inj hsha⟩

theorem row_ne_nil : record.row id ≠ [] := by
  intro hempty
  have hsplit := splitOn_row hrecord
  rw [hempty, List.splitOn_nil] at hsplit
  exact (isSha_sha hrecord).ne_nil (List.cons.inj hsplit).1.symm

/-- A log with a row is not blank. -/
theorem trim_logText_ne_nil {records : List (LogRecord (List Char))} (hmem : record ∈ records) :
    trim (logText id records) ≠ [] := by
  obtain ⟨c, hc⟩ := List.exists_mem_of_ne_nil _ (isSha_sha hrecord).ne_nil
  have hblank : isWhitespace c = false := by
    rcases (isSha_sha hrecord).2 c hc with hdigit | ⟨hlow, hhigh⟩
    · rw [Char.isDigit, Bool.and_eq_true, decide_eq_true_eq, decide_eq_true_eq] at hdigit
      exact isWhitespace_of_graphic (Char.le_trans (by decide) hdigit.1)
        (Char.le_trans hdigit.2 (by decide))
    · exact isWhitespace_of_graphic (Char.le_trans (by decide) hlow)
        (Char.le_trans hhigh (by decide))
  apply trim_ne_nil_of_mem (c := c) _ hblank
  apply mem_intercalate (List.mem_map_of_mem hmem)
  exact mem_intercalate List.mem_cons_self hc

end

/-- The lines of a log are its rows. -/
theorem parseGitLogOutput_logText {records : List (LogRecord (List Char))}
    (hrecords : ∀ record ∈ records, record.IsLegal id) :
    parseGitLogOutput (logText id records) =
      records.filterMap fun record ↦ parseGitLogLine (record.row id) := by
  have hrows : ∀ row ∈ records.map (LogRecord.row id), '\n' ∉ row ∧ row ≠ [] := by
    intro row hrow
    obtain ⟨record, hrecord, rfl⟩ := List.mem_map.mp hrow
    exact ⟨newline_not_mem_row (hrecords record hrecord), row_ne_nil (hrecords record hrecord)⟩
  rw [parseGitLogOutput]
  split
  · rename_i hblank
    cases records with
    | nil => rfl
    | cons record rest =>
      exact absurd hblank
        (trim_logText_ne_nil (hrecords record List.mem_cons_self) List.mem_cons_self)
  · simp only [logText, id]
    rw [filter_splitOn_intercalate hrows, List.filterMap_map]
    rfl

/-- `/^[0-9a-fA-F]{7,64}$/`. -/
def matchesCursor (cursor : List Char) : Bool :=
  7 ≤ cursor.length && cursor.length ≤ 64 &&
    cursor.all fun c ↦ c.isDigit || ('a' ≤ c && c ≤ 'f') || ('A' ≤ c && c ≤ 'F')

/-- `/^[A-Za-z0-9_./+-]+$/`. -/
def matchesBranch (branch : List Char) : Bool :=
  branch ≠ [] && branch.all fun c ↦ c.isAlphanum || ['_', '.', '/', '+', '-'].contains c

def DEFAULT_LIMIT : ℕ := 30

def MAX_LIMIT : ℕ := 100

/-- The limit as a number of rows, where it is a positive integer. -/
def rowLimit (rawLimit : JsNumber) : Option ℕ :=
  match rawLimit with
  | .finite value =>
    if value.den = 1 ∧ 1 ≤ value.num then some (min value.num.toNat MAX_LIMIT) else none
  | _ => none

def LOG_PRETTY : List Char := "--pretty=format:%H\t%an\t%ae\t%at\t%P\t%s".toList

def logArgs (count : ℕ) (startRef : Option (List Char)) : List (List Char) :=
  ["log".toList, "-n".toList, Nat.toDigits 10 count, "--no-color".toList,
    "--no-decorate".toList, LOG_PRETTY, "--end-of-options".toList] ++ startRef.toList

/-- A regular expression for a text without special characters, with the flag `i`. -/
def mentions (phrase : String) (text : List Char) : Bool :=
  (indexOf (text.map Char.toLower) phrase.toList 0).isSome

def gitReasonToLogReason (reason : GitReason) (stderr : List Char) : GitLogReason :=
  match reason with
  | .ok => .ok
  | .notARepo => .notARepo
  | .pathMissing => .pathMissing
  | .timeout => .timeout
  | _ =>
    if mentions "bad revision" stderr || mentions "unknown revision" stderr ||
        mentions "ambiguous argument" stderr || mentions "not a valid object name" stderr then
      .badRevision
    else .unknown

/-- `numberText` is the conversion of a number to a string, and `runGitCommand` gives what git
prints for some arguments. -/
def runGitLog (numberText : JsNumber → List Char)
    (runGitCommand : List (List Char) → RunGitCommandResult (List Char))
    (opts : RunGitLogOptions) : RunGitLogResult :=
  let rawLimit := opts.limit.getD (.finite DEFAULT_LIMIT)
  match rowLimit rawLimit with
  | none => {
      ok := false
      reason := .badRevision
      message := some ("Invalid 'limit' — must be a positive integer (got ".toList ++
        numberText rawLimit ++ ").".toList) }
  | some limit =>
    if opts.cursor.any (!matchesCursor ·) then {
        ok := false
        reason := .badRevision
        message := some "Invalid 'cursor' — must be a 7..64-char hex SHA.".toList }
    else if opts.branch.any (!matchesBranch ·) then {
        ok := false
        reason := .badRevision
        message := some
          "Invalid 'branch' — must match [A-Za-z0-9_./+-]+ with no leading '-'.".toList }
    else
      let cmd := runGitCommand (logArgs (limit + 1) (opts.cursor.or opts.branch))
      let stderr := cmd.stderr.getD []
      match cmd.ok, cmd.data with
      | true, some stdout =>
        let commits := parseGitLogOutput stdout
        { ok := true
          commits := some (commits.take limit)
          nextCursor := commits[limit]?.map GitLogCommit.sha
          reason := .ok }
      | _, _ =>
        if mentions "does not have any commits" stderr then
          { ok := true, commits := some [], reason := .ok }
        else {
          ok := false
          reason := gitReasonToLogReason cmd.reason stderr
          message := cmd.message
          stderr := some stderr }

/-- The pages that a caller gets who follows `nextCursor` until it is `null`; `none` when the fuel
does not last or a page fails. -/
def followCursors (numberText : JsNumber → List Char)
    (runGitCommand : List (List Char) → RunGitCommandResult (List Char))
    (opts : RunGitLogOptions) : ℕ → Option (List (List GitLogCommit))
  | 0 => none
  | fuel + 1 =>
    let result := runGitLog numberText runGitCommand opts
    match result.commits, result.nextCursor with
    | none, _ => none
    | some commits, none => some [commits]
    | some commits, some next =>
      (followCursors numberText runGitCommand { opts with cursor := some next } fuel).map
        (commits :: ·)

end Flockctl.GitOperations
