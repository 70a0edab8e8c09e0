import Flockctl.Collections.JsMap
import Flockctl.Collections.JsParse

/-!
# The files of a commit

Git is asked twice about the files of a commit: for the status of each and for the lines that each
won and lost. The fields of both lists end in NUL characters, and a file that was moved has a field
more in both. The lists are put together by the path.
-/

namespace Flockctl.GitOperations

open Collections

inductive ShowStatus
  | M | A | D | R | C | T | U
  deriving DecidableEq

structure GitShowFile where
  path : List Char
  status : ShowStatus
  added : JsNumber
  removed : JsNumber
  oldPath : Option (List Char)
  deriving DecidableEq

structure StatusRow where
  status : ShowStatus
  path : List Char
  oldPath : Option (List Char)

structure NumstatRow where
  added : JsNumber
  removed : JsNumber
  path : List Char
  oldPath : Option (List Char)

def ShowStatus.letter : ShowStatus → Char
  | .M => 'M' | .A => 'A' | .D => 'D' | .R => 'R' | .C => 'C' | .T => 'T' | .U => 'U'

def ShowStatus.all : List ShowStatus := [.M, .A, .D, .R, .C, .T, .U]

def statusOf (upper : Char) : Option ShowStatus := ShowStatus.all.find? (·.letter = upper)

def ShowStatus.isMove (status : ShowStatus) : Bool := status = .R || status = .C

/-- `out.replace(/^\s+/, "").split("\0").filter((t) => t.length > 0)`. -/
def tokensOf (out : List Char) : List (List Char) :=
  ((out.dropWhile isWhitespace).splitOn '\x00').filter (· ≠ [])

/-- A code that is not known is passed over with the field behind it. -/
def statusRows : List (List Char) → List StatusRow
  | [] => []
  | code :: rest =>
    match statusOf (code.headD ' ').toUpper, rest with
    | some status, first :: second :: rest =>
      if status.isMove then ⟨status, second, some first⟩ :: statusRows rest
      else ⟨status, first, none⟩ :: statusRows (second :: rest)
    | some status, [path] => if status.isMove then [] else [⟨status, path, none⟩]
    | none, _ :: rest => statusRows rest
    | _, [] => []

def parseNameStatusZ (out : List Char) : List StatusRow := statusRows (tokensOf out)

/-- `raw === "-" ? 0 : Number.parseInt(raw, 10) || 0`. -/
def countOf (raw : List Char) : JsNumber :=
  if raw = ['-'] then .finite 0 else (parseInt raw).orZero

def numstatRows : List (List Char) → List NumstatRow
  | [] => []
  | head :: rest =>
    match head.splitOn '\t' with
    | added :: removed :: first :: others =>
      let inlinePath := ['\t'].intercalate (first :: others)
      if inlinePath ≠ [] then ⟨countOf added, countOf removed, inlinePath, none⟩ :: numstatRows rest
      else
        match rest with
        | oldPath :: newPath :: rest =>
          ⟨countOf added, countOf removed, newPath, some oldPath⟩ :: numstatRows rest
        | _ => []
    | _ => numstatRows rest

def parseNumstatZ (out : List Char) : List NumstatRow := numstatRows (tokensOf out)

def mergeShowFiles (statusRows : List StatusRow) (numstatRows : List NumstatRow) :
    List GitShowFile :=
  let numByPath : JsMap (List Char) (JsNumber × JsNumber) :=
    numstatRows.foldl (fun map r ↦ map.set r.path (r.added, r.removed)) JsMap.empty
  statusRows.map fun s ↦
    let counts := (numByPath.get s.path).getD (.finite 0, .finite 0)
    { path := s.path
      status := s.status
      added := counts.1
      removed := counts.2
      oldPath := s.oldPath.filter (· ≠ []) }

/-! ## What git prints -/

/-- A changed file. Behind the letter of its status git may put more, as the similarity of a moved
file; the lines of a binary file are not counted. -/
structure ChangedFile where
  status : ShowStatus
  suffix : List Char
  path : List Char
  oldPath : Option (List Char)
  added : Option ℕ
  removed : Option ℕ
  clean : '\x00' ∉ suffix
  named : ∀ name ∈ oldPath.toList ++ [path], '\x00' ∉ name ∧ name ≠ []
  moved : oldPath.isSome = status.isMove
  counted : ∀ count ∈ [added, removed], ∀ n ∈ count, n < 2 ^ 64

/-- The files of a commit, and the blanks git prints in front of them. -/
structure ShownFiles where
  files : List ChangedFile
  distinct : (files.map ChangedFile.path).Nodup
  blanks : List Char
  blank : ∀ c ∈ blanks, isWhitespace c = true

/-- The text of a number of lines. -/
def lineCount (count : Option ℕ) : List Char := count.elim ['-'] (Nat.toDigits 10)

/-- The double nearest to it. -/
def lineDouble (count : Option ℕ) : JsNumber := .finite (count.elim 0 fun n ↦ doubleOf n)

namespace ChangedFile

variable (file : ChangedFile)

def names : List (List Char) := file.oldPath.toList ++ [file.path]

def statusTokens : List (List Char) := (file.status.letter :: file.suffix) :: file.names

/-- The numbers with their tabs. -/
def counters : List Char :=
  lineCount file.added ++ '\t' :: (lineCount file.removed ++ ['\t'])

def numstatTokens : List (List Char) :=
  if file.oldPath.isSome then file.counters :: file.names else [file.counters ++ file.path]

/-- The row of the file. -/
def shown : GitShowFile where
  path := file.path
  status := file.status
  added := lineDouble file.added
  removed := lineDouble file.removed
  oldPath := file.oldPath

end ChangedFile

/-- The files in the format of `-z`. -/
def ShownFiles.listed (shown : ShownFiles) (tokens : ChangedFile → List (List Char)) : List Char :=
  shown.blanks ++ (shown.files.flatMap tokens).flatMap (· ++ ['\x00'])

/-! ## Reading it -/

theorem splitOn_terminated (tokens : List (List Char)) (h : ∀ token ∈ tokens, '\x00' ∉ token) :
    (tokens.flatMap (· ++ ['\x00'])).splitOn '\x00' = tokens ++ [[]] := by
  induction tokens with
  | nil => rfl
  | cons token tokens ih =>
    rw [List.flatMap_cons, List.append_assoc, List.singleton_append, List.splitOn_append_cons_self,
      List.splitOn_eq_singleton (h token List.mem_cons_self),
      ih fun other hother ↦ h other (List.mem_cons_of_mem token hother)]
    rfl

/-- The fields of one file: the first begins with no blank. -/
def AreFields (tokens : List (List Char)) : Prop :=
  ∃ c token rest, tokens = (c :: token) :: rest ∧ isWhitespace c = false ∧
    ∀ field ∈ tokens, '\x00' ∉ field ∧ field ≠ []

theorem tokensOf_listed (shown : ShownFiles) {tokens : ChangedFile → List (List Char)}
    (hfields : ∀ file, AreFields (tokens file)) :
    tokensOf (shown.listed tokens) = shown.files.flatMap tokens := by
  have hall : ∀ token ∈ shown.files.flatMap tokens, '\x00' ∉ token ∧ token ≠ [] := by
    intro token htoken
    obtain ⟨file, -, hmem⟩ := List.mem_flatMap.mp htoken
    obtain ⟨-, -, -, -, -, hclean⟩ := hfields file
    exact hclean token hmem
  have hkept : ((shown.files.flatMap tokens).flatMap (· ++ ['\x00'])).dropWhile isWhitespace =
      (shown.files.flatMap tokens).flatMap (· ++ ['\x00']) := by
    cases shown.files with
    | nil => rfl
    | cons file files =>
      obtain ⟨c, token, rest, htokens, hc, -⟩ := hfields file
      rw [List.flatMap_cons, htokens]
      simp [hc]
  rw [tokensOf, ShownFiles.listed, List.dropWhile_append_of_pos shown.blank, hkept,
    splitOn_terminated _ fun token htoken ↦ (hall token htoken).1, List.filter_append,
    List.filter_eq_self.mpr fun token htoken ↦ decide_eq_true (hall token htoken).2]
  simp

theorem lineCount_clean (count : Option ℕ) :
    ∃ c rest, lineCount count = c :: rest ∧ isWhitespace c = false ∧
      '\t' ∉ lineCount count ∧ '\x00' ∉ lineCount count := by
  cases count with
  | none => exact ⟨'-', [], rfl, by decide, by decide, by decide⟩
  | some n =>
    obtain ⟨c, rest, hdigits, hc⟩ := toDigits_eq_cons n
    exact ⟨c, rest, hdigits, isWhitespace_of_isDigit hc,
      fun htab ↦ absurd (isDigit_of_mem htab) (by decide),
      fun hnul ↦ absurd (isDigit_of_mem hnul) (by decide)⟩

theorem countOf_lineCount {count : Option ℕ} (hcount : ∀ n ∈ count, n < 2 ^ 64) :
    countOf (lineCount count) = lineDouble count := by
  cases count with
  | none => rfl
  | some n =>
    have hdash : Nat.toDigits 10 n ≠ ['-'] := by
      intro hdash
      cases isDigit_of_mem (n := n) (hdash ▸ List.mem_cons_self)
    rw [lineCount, Option.elim_some, countOf, if_neg hdash, parseInt_toDigits (hcount n rfl)]
    simp [lineDouble, JsNumber.orZero]

theorem statusTokens_areFields (file : ChangedFile) : AreFields file.statusTokens := by
  refine ⟨_, _, _, rfl, by cases file.status <;> decide, ?_⟩
  rw [ChangedFile.statusTokens, List.forall_mem_cons, List.mem_cons, not_or]
  exact ⟨⟨⟨by cases file.status <;> decide, file.clean⟩, List.cons_ne_nil _ _⟩, file.named⟩

theorem numstatTokens_areFields (file : ChangedFile) : AreFields file.numstatTokens := by
  obtain ⟨c, rest, hfirst, hc, -, hadded⟩ := lineCount_clean file.added
  obtain ⟨-, -, -, -, -, hremoved⟩ := lineCount_clean file.removed
  have hclean : '\x00' ∉ file.counters := by simp [ChangedFile.counters, hadded, hremoved]
  obtain ⟨rest, hstart⟩ : ∃ rest, file.counters = c :: rest := by
    simp [ChangedFile.counters, hfirst]
  unfold AreFields ChangedFile.numstatTokens
  split
  · refine ⟨c, rest, file.names, by rw [hstart], hc, ?_⟩
    rw [List.forall_mem_cons]
    exact ⟨⟨hclean, hstart ▸ List.cons_ne_nil c rest⟩, file.named⟩
  · refine ⟨c, rest ++ file.path, [], by rw [hstart]; rfl, hc, ?_⟩
    rw [List.forall_mem_singleton, List.mem_append, not_or, hstart]
    exact ⟨⟨hstart ▸ hclean, (file.named file.path (by simp)).1⟩, List.cons_ne_nil _ _⟩

theorem flatMap_rows {Row : Type} {rows : List (List Char) → List Row}
    {tokens : ChangedFile → List (List Char)} {row : ChangedFile → Row} (hnil : rows [] = [])
    (hstep : ∀ file rest, rows (tokens file ++ rest) = row file :: rows rest)
    (files : List ChangedFile) : rows (files.flatMap tokens) = files.map row := by
  induction files with
  | nil => exact hnil
  | cons file files ih => rw [List.flatMap_cons, hstep, ih, List.map_cons]

theorem statusRows_statusTokens (file : ChangedFile) (rest : List (List Char)) :
    statusRows (file.statusTokens ++ rest) =
      ⟨file.status, file.path, file.oldPath⟩ :: statusRows rest := by
  have hstatus : statusOf file.status.letter.toUpper = some file.status := by
    cases file.status <;> rfl
  have hmoved := file.moved
  cases hold : file.oldPath with
  | none =>
    rw [hold] at hmoved
    cases rest <;>
      simp [ChangedFile.statusTokens, ChangedFile.names, hold, statusRows, hstatus, ← hmoved]
  | some oldPath =>
    rw [hold] at hmoved
    simp [ChangedFile.statusTokens, ChangedFile.names, hold, statusRows, hstatus, ← hmoved]

theorem splitOn_counters (file : ChangedFile) (back : List Char) :
    (file.counters ++ back).splitOn '\t' =
      lineCount file.added :: lineCount file.removed :: back.splitOn '\t' := by
  obtain ⟨-, -, -, -, hadded, -⟩ := lineCount_clean file.added
  obtain ⟨-, -, -, -, hremoved, -⟩ := lineCount_clean file.removed
  simp [ChangedFile.counters, List.splitOn_append_cons_self, List.splitOn_eq_singleton hadded,
    List.splitOn_eq_singleton hremoved]

theorem numstatRows_numstatTokens (file : ChangedFile) (rest : List (List Char)) :
    numstatRows (file.numstatTokens ++ rest) =
      ⟨file.shown.added, file.shown.removed, file.path, file.oldPath⟩ :: numstatRows rest := by
  have hadded : countOf (lineCount file.added) = file.shown.added :=
    countOf_lineCount (file.counted _ (by simp))
  have hremoved : countOf (lineCount file.removed) = file.shown.removed :=
    countOf_lineCount (file.counted _ (by simp))
  cases hold : file.oldPath with
  | none =>
    obtain ⟨first, others, hpath⟩ := List.exists_cons_of_ne_nil (List.splitOn_ne_nil '\t' file.path)
    have hjoin : ['\t'].intercalate (first :: others) = file.path := by
      rw [← hpath, List.intercalate_splitOn]
    have hne : file.path ≠ [] := (file.named file.path (by simp)).2
    have hsplit := splitOn_counters file file.path
    rw [hpath] at hsplit
    simp [ChangedFile.numstatTokens, hold, numstatRows, hsplit, hjoin, hne, hadded, hremoved]
  | some oldPath =>
    have hsplit := splitOn_counters file []
    rw [List.append_nil, List.splitOn_nil] at hsplit
    simp [ChangedFile.numstatTokens, ChangedFile.names, hold, numstatRows, hsplit, hadded, hremoved]

theorem get_numByPath {files : List ChangedFile} (hdistinct : (files.map ChangedFile.path).Nodup)
    {file : ChangedFile} (hfile : file ∈ files) :
    ((files.foldl (fun map file ↦ map.set file.path (file.shown.added, file.shown.removed))
      (JsMap.empty : JsMap (List Char) (JsNumber × JsNumber))).get file.path) =
        some (file.shown.added, file.shown.removed) := by
  induction files using List.reverseRecOn with
  | nil => cases hfile
  | append_singleton files last ih =>
    rw [List.foldl_concat, JsMap.get_set]
    rw [List.map_append, List.nodup_append] at hdistinct
    obtain ⟨hdistinct, -, hother⟩ := hdistinct
    rcases List.mem_append.mp hfile with hbefore | hlast
    · rw [if_neg (hother _ (List.mem_map_of_mem hbefore) _ List.mem_cons_self)]
      exact ih hdistinct hbefore
    · rw [List.mem_singleton.mp hlast, if_pos rfl]

end Flockctl.GitOperations
