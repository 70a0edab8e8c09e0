import Flockctl.Plan.Markdown

/-!
# A YAML package for the blocks of the plan store

A block is written as one line for each field. A string of letters, digits and a few marks that
reads as nothing else stands plain, any other is quoted; so each line is read back on its own.
-/

namespace Flockctl.Plan.LineYaml

open Collections

def escape : List Char → List Char
  | [] => []
  | c :: rest =>
    if c = '\n' then '\\' :: 'n' :: escape rest
    else if c = '\\' then '\\' :: '\\' :: escape rest
    else c :: escape rest

def unescape : List Char → List Char
  | [] => []
  | '\\' :: 'n' :: rest => '\n' :: unescape rest
  | '\\' :: '\\' :: rest => '\\' :: unescape rest
  | c :: rest => c :: unescape rest

theorem unescape_escape (text : List Char) : unescape (escape text) = text := by
  induction text with
  | nil => rfl
  | cons c rest ih =>
    rw [escape]
    split
    · rename_i hc
      rw [unescape, ih, hc]
    · split
      · rename_i hc
        rw [unescape, ih, hc]
      · rename_i hc
        rw [unescape, ih]
        · exact fun _ h ↦ absurd h hc
        · exact fun _ h ↦ absurd h hc

theorem newline_not_mem_escape (text : List Char) : '\n' ∉ escape text := by
  induction text with
  | nil => exact List.not_mem_nil
  | cons c rest ih =>
    rw [escape]
    split
    · simpa using ih
    · split
      · simpa using ih
      · rename_i hc _
        simpa [eq_comm, ih] using hc

def integerText : ℤ → List Char
  | .ofNat n => Nat.toDigits 10 n
  | .negSucc n => '-' :: Nat.toDigits 10 (n + 1)

def integerOf : List Char → ℤ
  | '-' :: digits => -(Nat.ofDigitChars 10 digits 0 : ℕ)
  | digits => (Nat.ofDigitChars 10 digits 0 : ℕ)

def isIntegerChar (c : Char) : Bool := c.isDigit || c == '-'

/-- The words that are not read as strings. -/
def words : List (List Char) := ["null".toList, "true".toList, "false".toList]

/-- A string that stands in a line as it is. -/
def isPlain (text : List Char) : Bool :=
  !text.isEmpty && (text.all fun c ↦ c.isAlphanum || c == '-' || c == ':' || c == '.') &&
    !text.all isIntegerChar && !(words.contains text)

def scalarText : YamlValue → List Char
  | .null => "null".toList
  | .bool true => "true".toList
  | .bool false => "false".toList
  | .number value => integerText value
  | .fraction text => '!' :: escape text.toList
  | .object json => '&' :: escape json.toList
  | .string text =>
    if isPlain text.toList then text.toList else '"' :: escape text.toList ++ ['"']

def scalarOf (text : List Char) : YamlValue :=
  if text.head? = some '!' then .fraction (String.ofList (unescape text.tail))
  else if text.head? = some '&' then .object (String.ofList (unescape text.tail))
  else if text.head? = some '"' then .string (String.ofList (unescape text.tail.dropLast))
  else if text = "null".toList then .null
  else if text = "true".toList then .bool true
  else if text = "false".toList then .bool false
  else if text.all isIntegerChar then .number (integerOf text)
  else .string (String.ofList text)

theorem isDigit_of_mem_toDigits {n : ℕ} {c : Char} (h : c ∈ Nat.toDigits 10 n) :
    c.isDigit = true :=
  Nat.isDigit_of_mem_toDigits (by decide) (by decide) h

theorem integerOf_integerText (value : ℤ) : integerOf (integerText value) = value := by
  cases value with
  | ofNat n =>
    have hhead : ∀ digits, Nat.toDigits 10 n ≠ '-' :: digits := by
      intro digits h
      have hdigit := isDigit_of_mem_toDigits (n := n) (h ▸ List.mem_cons_self)
      exact absurd hdigit (by decide)
    rw [integerText, integerOf, Nat.ofDigitChars_ten_toDigits]
    · rfl
    · exact hhead
  | negSucc n =>
    rw [integerText, integerOf, Nat.ofDigitChars_ten_toDigits]
    rfl

theorem all_integerText (value : ℤ) : (integerText value).all isIntegerChar = true := by
  have hdigits (n : ℕ) : (Nat.toDigits 10 n).all isIntegerChar = true := by
    rw [List.all_eq_true]
    intro c hc
    rw [isIntegerChar, isDigit_of_mem_toDigits hc, Bool.true_or]
  cases value with
  | ofNat n => exact hdigits n
  | negSucc n => rw [integerText, List.all_cons, hdigits, Bool.and_true]; decide

/-- A text all of whose characters are of a kind does not start with one of another kind. -/
theorem head?_ne_of_all {p : Char → Bool} {text : List Char} (htext : text.all p = true)
    {mark : Char} (hmark : p mark = false) : text.head? ≠ some mark := by
  intro hhead
  have hp := List.all_eq_true.mp htext mark (List.mem_of_mem_head? hhead)
  rw [hmark] at hp
  cases hp

theorem ne_of_all {p : Char → Bool} {text other : List Char} (htext : text.all p = true)
    (hother : other.all p = false) : text ≠ other := by
  rintro rfl
  rw [hother] at htext
  cases htext

theorem scalarOf_integerText (value : ℤ) : scalarOf (integerText value) = .number value := by
  have hall := all_integerText value
  rw [scalarOf, if_neg (head?_ne_of_all hall (by decide)), if_neg (head?_ne_of_all hall (by decide)),
    if_neg (head?_ne_of_all hall (by decide)), if_neg (ne_of_all hall (by decide)),
    if_neg (ne_of_all hall (by decide)), if_neg (ne_of_all hall (by decide)), if_pos hall,
    integerOf_integerText]

theorem scalarOf_plain {text : String} (h : isPlain text.toList = true) :
    scalarOf text.toList = .string text := by
  simp only [isPlain, Bool.and_eq_true, Bool.not_eq_true'] at h
  obtain ⟨⟨⟨_, hall⟩, hinteger⟩, hword⟩ := h
  have hwords : ∀ word ∈ words, text.toList ≠ word := by
    intro word hmem heq
    rw [heq, List.contains_iff_mem.mpr hmem] at hword
    cases hword
  rw [scalarOf, if_neg (head?_ne_of_all hall (by decide)), if_neg (head?_ne_of_all hall (by decide)),
    if_neg (head?_ne_of_all hall (by decide)), if_neg (hwords _ (by simp [words])),
    if_neg (hwords _ (by simp [words])), if_neg (hwords _ (by simp [words])),
    if_neg (by rw [hinteger]; simp),
    String.ofList_toList]

theorem scalarOf_scalarText (value : YamlValue) : scalarOf (scalarText value) = value := by
  cases value with
  | null => rfl
  | bool value => cases value <;> rfl
  | number value => exact scalarOf_integerText value
  | fraction text => simp [scalarText, scalarOf, unescape_escape]
  | object json => simp [scalarText, scalarOf, unescape_escape]
  | string text =>
    rw [scalarText]
    split
    · rename_i hplain
      exact scalarOf_plain hplain
    · simp [scalarOf, unescape_escape]

theorem newline_not_mem_scalarText (value : YamlValue) : '\n' ∉ scalarText value := by
  cases value with
  | null => decide
  | bool value => cases value <;> decide
  | number value =>
    intro hmem
    exact absurd (List.all_eq_true.mp (all_integerText value) _ hmem) (by decide)
  | fraction text => simp [scalarText, newline_not_mem_escape]
  | object json => simp [scalarText, newline_not_mem_escape]
  | string text =>
    rw [scalarText]
    split
    · rename_i hplain
      simp only [isPlain, Bool.and_eq_true] at hplain
      intro hmem
      exact absurd (List.all_eq_true.mp hplain.1.1.2 _ hmem) (by decide)
    · simp [newline_not_mem_escape]

/-- The line of a field. -/
def lineText (entry : String × YamlValue) : List Char :=
  entry.1.toList ++ ':' :: ' ' :: scalarText entry.2

def lineOf (line : List Char) : String × YamlValue :=
  let key := line.takeWhile (· != ':')
  (String.ofList key, scalarOf (line.drop (key.length + 2)))

def blockText (entries : List (String × YamlValue)) : List Char :=
  ['\n'].intercalate (entries.map lineText)

def blockOf (text : List Char) : List (String × YamlValue) := (text.splitOn '\n').map lineOf

theorem isLetter_of_isFieldName {key : String} (h : isFieldName key = true) {c : Char}
    (hc : c ∈ key.toList) : (('a' ≤ c && c ≤ 'z') || c == '_') = true := by
  rw [isFieldName, Bool.and_eq_true] at h
  exact List.all_eq_true.mp h.2 c hc

theorem lineOf_lineText {entry : String × YamlValue} (h : isFieldName entry.1 = true) :
    lineOf (lineText entry) = entry := by
  have hkey : (lineText entry).takeWhile (· != ':') = entry.1.toList := by
    rw [lineText, List.takeWhile_append_of_pos]
    · simp
    · intro c hc
      have hletter := isLetter_of_isFieldName h hc
      rw [bne_iff_ne]
      rintro rfl
      exact absurd hletter (by decide)
  have hvalue : (lineText entry).drop (entry.1.toList.length + 2) = scalarText entry.2 := by
    rw [lineText, ← List.drop_drop, List.drop_left]
    rfl
  rw [lineOf, hkey, hvalue, scalarOf_scalarText, String.ofList_toList]

theorem newline_not_mem_lineText {entry : String × YamlValue} (h : isFieldName entry.1 = true) :
    '\n' ∉ lineText entry := by
  have hkey : '\n' ∉ entry.1.toList := by
    intro hmem
    exact absurd (isLetter_of_isFieldName h hmem) (by decide)
  simp [lineText, hkey, newline_not_mem_scalarText]

theorem blockOf_blockText {entries : List (String × YamlValue)} (hentries : entries ≠ [])
    (h : ∀ entry ∈ entries, isFieldName entry.1 = true) :
    blockOf (blockText entries) = entries := by
  have hsplit : (blockText entries).splitOn '\n' = entries.map lineText := by
    apply List.splitOn_intercalate
    · intro line hline
      obtain ⟨entry, hentry, rfl⟩ := List.mem_map.mp hline
      exact newline_not_mem_lineText (h entry hentry)
    · simpa using hentries
  rw [blockOf, hsplit, List.map_map]
  calc entries.map (lineOf ∘ lineText) = entries.map id :=
        List.map_congr_left fun entry hentry ↦ lineOf_lineText (h entry hentry)
    _ = entries := List.map_id entries

theorem lineText_ne_nil (entry : String × YamlValue) : lineText entry ≠ [] := by
  simp [lineText]

theorem head?_blockText {entries : List (String × YamlValue)}
    (h : ∀ entry ∈ entries, isFieldName entry.1 = true) {c : Char}
    (hc : c ∈ (blockText entries).head?) : (('a' ≤ c && c ≤ 'z') || c == '_') = true := by
  cases entries with
  | nil => cases hc
  | cons entry rest =>
    have hname := h entry List.mem_cons_self
    obtain ⟨d, key, hkey⟩ : ∃ d key, entry.1.toList = d :: key := by
      apply List.exists_cons_of_ne_nil
      intro hnil
      simp [isFieldName, hnil] at hname
    have hhead : (blockText (entry :: rest)).head? = some d := by
      cases rest <;> simp [blockText, lineText, hkey, List.intercalate_cons_cons]
    rw [hhead] at hc
    cases hc
    exact isLetter_of_isFieldName hname (by rw [hkey]; exact List.mem_cons_self)

theorem closingFence_infix_append {line rest : List Char} (hline : '\n' ∉ line)
    (h : closingFence <:+: line ++ rest) : closingFence <:+: rest := by
  induction line with
  | nil => exact h
  | cons c line ih =>
    rw [List.mem_cons, not_or] at hline
    rcases List.infix_cons_iff.mp h with hstart | hpart
    · exact absurd (List.cons_prefix_cons.mp hstart).1 hline.1
    · exact ih hline.2 hpart

theorem not_closingFence_infix_blockText {entries : List (String × YamlValue)}
    (h : ∀ entry ∈ entries, isFieldName entry.1 = true) :
    ¬closingFence <:+: blockText entries := by
  induction entries with
  | nil => decide
  | cons entry rest ih =>
    have hrest : ∀ other ∈ rest, isFieldName other.1 = true := fun other hother ↦
      h other (List.mem_cons_of_mem entry hother)
    have hline := newline_not_mem_lineText (h entry List.mem_cons_self)
    cases rest with
    | nil =>
      intro hpart
      have hpart : closingFence <:+: lineText entry ++ [] := by simpa [blockText] using hpart
      exact absurd (closingFence_infix_append hline hpart) (by decide)
    | cons next rest =>
      have htext : blockText (entry :: next :: rest) =
          lineText entry ++ '\n' :: blockText (next :: rest) := by
        simp [blockText, List.intercalate_cons_cons]
      intro hpart
      rw [htext] at hpart
      rcases List.infix_cons_iff.mp (closingFence_infix_append hline hpart) with hstart | hpart
      · obtain ⟨after, hafter⟩ := (List.cons_prefix_cons.mp hstart).2
        have hhead : '-' ∈ (blockText (next :: rest)).head? := by rw [← hafter]; rfl
        exact absurd (head?_blockText hrest hhead) (by decide)
      · exact ih hrest hpart

theorem suffix_blockText (front : List (String × YamlValue)) (entry : String × YamlValue) :
    lineText entry <:+ blockText (front ++ [entry]) := by
  induction front with
  | nil => simp [blockText]
  | cons first front ih =>
    have htext : blockText (first :: front ++ [entry]) =
        lineText first ++ '\n' :: blockText (front ++ [entry]) := by
      cases front <;> simp [blockText, List.intercalate_cons_cons]
    rw [htext]
    exact ih.trans ((List.suffix_cons _ _).trans (List.suffix_append _ _))

theorem isWhitespace_of_isTimestampChar {c : Char} (h : isTimestampChar c = true) :
    isWhitespace c = false := by
  rcases Bool.or_eq_true_iff.mp h with hdigit | hmark
  · rw [Char.isDigit, Bool.and_eq_true, decide_eq_true_iff, decide_eq_true_iff] at hdigit
    apply isWhitespace_of_graphic
    · exact Char.le_trans (by decide : '!' ≤ '0') hdigit.1
    · exact Char.le_trans hdigit.2 (by decide : '9' ≤ '~')
  · rw [List.contains_iff_mem] at hmark
    simp only [List.mem_cons, List.not_mem_nil, or_false] at hmark
    rcases hmark with rfl | rfl | rfl | rfl | rfl | rfl <;> decide

/-- A line that ends with a timestamp ends with no white space. -/
theorem getLast?_lineText (key : String) (stamp : Timestamp) {c : Char}
    (hc : c ∈ (lineText (key, .string stamp.text)).getLast?) : isWhitespace c = false := by
  rw [lineText, scalarText] at hc
  split at hc
  · obtain ⟨d, rest, hstamp⟩ := List.exists_cons_of_ne_nil stamp.nonempty
    have hmem : c ∈ stamp.text.toList := by
      rw [List.getLast?_append_of_ne_nil _ (List.cons_ne_nil _ _), hstamp,
        List.getLast?_cons_cons, List.getLast?_cons_cons, ← hstamp] at hc
      exact List.mem_of_getLast? hc
    exact isWhitespace_of_isTimestampChar (List.all_eq_true.mp stamp.plain c hmem)
  · have hquote : c = '"' := by
      rw [← List.cons_append, ← List.cons_append, ← List.append_assoc,
        List.getLast?_append_of_ne_nil _ (List.cons_ne_nil _ _)] at hc
      simpa [eq_comm] using hc
    rw [hquote]
    decide

theorem isTrimmed_blockText {entries : List (String × YamlValue)} (h : IsPlanBlock entries) :
    IsTrimmed (blockText entries) := by
  constructor
  · intro c hc
    rcases Bool.or_eq_true_iff.mp (head?_blockText h.names hc) with hletter | hmark
    · rw [Bool.and_eq_true, decide_eq_true_iff, decide_eq_true_iff] at hletter
      apply isWhitespace_of_graphic
      · exact Char.le_trans (by decide : '!' ≤ 'a') hletter.1
      · exact Char.le_trans hletter.2 (by decide : 'z' ≤ '~')
    · rw [beq_iff_eq.mp hmark]
      decide
  · obtain ⟨front, key, stamp, hentries⟩ := h.stamped
    intro c hc
    obtain ⟨before, hbefore⟩ := suffix_blockText front (key, .string stamp.text)
    rw [hentries, ← hbefore, List.getLast?_append_of_ne_nil _ (lineText_ne_nil _)] at hc
    exact getLast?_lineText key stamp hc

/-- The package. -/
def package : YamlPackage where
  parse text := some (some (.ofEntries (blockOf text.toList)))
  stringify entries := String.ofList (blockText entries ++ ['\n'])
  parse_stringify entries h := by
    have htrim : trim (blockText entries ++ ['\n']) = blockText entries := by
      rw [trim_concat_of_isWhitespace (by decide)]
      exact (trim_eq_self_iff _).mpr (isTrimmed_blockText h)
    obtain ⟨front, key, stamp, hentries⟩ := h.stamped
    have hne : entries ≠ [] := by
      rw [hentries]
      exact List.append_ne_nil_of_right_ne_nil front (List.cons_ne_nil _ _)
    simp only [String.toList_ofList, htrim, blockOf_blockText hne h.names]
  stringify_fence entries h := by
    rw [String.toList_ofList, trim_concat_of_isWhitespace (by decide),
      (trim_eq_self_iff _).mpr (isTrimmed_blockText h)]
    exact not_closingFence_infix_blockText h.names

end Flockctl.Plan.LineYaml
