import Flockctl.Encoding.Utf8
import Mathlib.Algebra.GroupWithZero.Nat

/-!
# The rows of a log

`git log` writes one line for each commit, in the format that its caller gives. The names and the
subject of a commit are bytes in the repository and characters in a program that has decoded them,
so a record is one of strings of any kind, and its row is a string of the same kind.
-/

namespace Flockctl.Git

universe u v

/-- What the log has of a commit: `%H`, `%an`, `%ae`, `%at`, `%P` and `%s`. -/
structure LogRecord (Str : Type u) where
  sha : Str
  author : Str
  email : Str
  seconds : ℕ
  parents : List Str
  subject : Str
  deriving DecidableEq, Repr

section

variable {Symbol : Type u} (ascii : List Char → List Symbol)

/-- The columns of `--pretty=format:%H<TAB>%an<TAB>%ae<TAB>%at<TAB>%P<TAB>%s`. -/
def LogRecord.columns (record : LogRecord (List Symbol)) : List (List Symbol) :=
  [record.sha, record.author, record.email, ascii (Nat.toDigits 10 record.seconds),
    (ascii [' ']).intercalate record.parents, record.subject]

def LogRecord.row (record : LogRecord (List Symbol)) : List Symbol :=
  (ascii ['\t']).intercalate (record.columns ascii)

/-- What `git log` prints: a line feed stands between two rows, and none behind the last one. -/
def logText (records : List (LogRecord (List Symbol))) : List Symbol :=
  (ascii ['\n']).intercalate (records.map (LogRecord.row ascii))

end

/-- The hash of a commit. -/
def IsSha (sha : List Char) : Prop :=
  (sha.length = 40 ∨ sha.length = 64) ∧ ∀ c ∈ sha, c.isDigit = true ∨ ('a' ≤ c ∧ c ≤ 'f')

instance (sha : List Char) : Decidable (IsSha sha) :=
  @instDecidableAnd _ _ inferInstance (List.decidableBAll _ sha)

theorem IsSha.not_mem {sha : List Char} (h : IsSha sha) {c : Char}
    (hc : ¬(c.isDigit = true ∨ ('a' ≤ c ∧ c ≤ 'f'))) : c ∉ sha := fun hmem ↦ hc (h.2 c hmem)

theorem IsSha.ne_nil {sha : List Char} (h : IsSha sha) : sha ≠ [] := by
  rintro rfl
  rcases h.1 with hlength | hlength
  · cases hlength
  · cases hlength

/-- What git makes sure of: hashes are hexadecimal, and the names and the subject have no line
feed. -/
structure LogRecord.IsLegal {Symbol : Type u} (ascii : List Char → List Symbol)
    (record : LogRecord (List Symbol)) : Prop where
  sha : ∃ text, IsSha text ∧ ascii text = record.sha
  parents : ∀ parent ∈ record.parents, ∃ text, IsSha text ∧ ascii text = parent
  seconds_lt : record.seconds < 2 ^ 64
  oneLine : ∀ symbol ∈ ascii ['\n'],
    symbol ∉ record.author ∧ symbol ∉ record.email ∧ symbol ∉ record.subject

end Flockctl.Git
