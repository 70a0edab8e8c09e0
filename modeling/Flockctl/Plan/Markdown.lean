import Flockctl.Collections.JsText
import Mathlib.Data.List.Infix

/-!
# Plan files

A plan entity is a markdown file with a YAML block between two `---` lines at its top. The YAML
package is a parameter: it maps the text of a block to the fields it holds, or throws. `parseMd`
looks for the block in the whole file and falls back to an empty one, while `hasYamlFrontmatter`,
which tells plan tasks from other notes, looks at the first 8192 characters only.
-/

namespace Flockctl.Plan

/-- A value in a YAML block; an absent key is `undefined`, no value. -/
inductive YamlValue
  | null
  | bool (value : Bool)
  | number (value : ℤ)
  /-- a number that is not an integer, as `String(value)` writes it -/
  | fraction (text : String)
  | string (value : String)
  /-- a list or a map, as `JSON.stringify(value)` writes it -/
  | object (json : String)
  deriving DecidableEq, Repr

/-- `typeof value`. -/
def YamlValue.typeOf : YamlValue → String
  | .null | .object _ => "object"
  | .bool _ => "boolean"
  | .number _ | .fraction _ => "number"
  | .string _ => "string"

/-- `if (value)`. -/
def YamlValue.isTruthy : YamlValue → Bool
  | .null => false
  | .bool value => value
  | .number value => value != 0
  | .string value => value != ""
  | .fraction _ | .object _ => true

/-- `Record<string, unknown>`. -/
abbrev Frontmatter := String → Option YamlValue

/-- `{}`. -/
def Frontmatter.empty : Frontmatter := fun _ ↦ none

/-- The keys of `changes` over those of `fields`; a key that is `undefined` changes nothing. -/
def Frontmatter.merge (fields changes : Frontmatter) : Frontmatter :=
  fun key ↦ (changes key).or (fields key)

/-- A line break and the three dashes that close a block. -/
def closingFence : List Char := ['\n', '-', '-', '-']

/-- The text before the first closing fence, if there is one. -/
def untilFence : List Char → Option (List Char)
  | [] => none
  | c :: rest =>
    if closingFence.isPrefixOf (c :: rest) then some [] else (untilFence rest).map (c :: ·)

/-- The block that the regular expressions of both readers capture. -/
def frontmatterBlock (text : List Char) : Option (List Char) :=
  if ['-', '-', '-', '\n'].isPrefixOf text then untilFence (text.drop 4) else none

/-- The UTF-16 units of a character. -/
def codeUnits (c : Char) : ℕ := if c.toNat < 0x10000 then 1 else 2

/-- `text.slice(0, n)`, which counts UTF-16 units. -/
def sliceUnits : ℕ → List Char → List Char
  | _, [] => []
  | n, c :: rest =>
    if codeUnits c ≤ n then c :: sliceUnits (n - codeUnits c) rest else []

/-- `hasYamlFrontmatter` on the content of a file that can be read. -/
def hasYamlFrontmatter (content : String) : Bool :=
  (frontmatterBlock (sliceUnits 8192 content.toList)).isSome

/-- `VALID_DQ_ESCAPE`. -/
def VALID_DQ_ESCAPE : List Char :=
  ['0', 'a', 'b', 't', 'n', 'v', 'f', 'r', 'e', '"', '/', '\\', 'N', '_', 'L', 'P', 'x', 'u', 'U',
    ' ', '\t', '\n']

/-- What `.` does not match. -/
def isLineTerminator (c : Char) : Bool :=
  c == '\n' || c == '\r' || c == '\u2028' || c == '\u2029'

/-- An escape sequence, with its backslash doubled unless it is a valid one. -/
def fixEscape (c : Char) : List Char :=
  if VALID_DQ_ESCAPE.contains c then ['\\', c] else ['\\', '\\', c]

/-- A double-quoted string after its opening quote: its inner text with stray backslashes doubled,
and what follows the closing quote. -/
def fixQuoted : List Char → Option (List Char × List Char)
  | [] | ['\\'] => none
  | '"' :: rest => some ([], rest)
  | '\\' :: c :: rest =>
    if isLineTerminator c then none
    else (fixQuoted rest).map fun (inner, after) ↦ (fixEscape c ++ inner, after)
  | c :: rest => (fixQuoted rest).map fun (inner, after) ↦ (c :: inner, after)

theorem length_of_fixQuoted {text inner after : List Char}
    (h : fixQuoted text = some (inner, after)) : after.length < text.length := by
  fun_induction fixQuoted text generalizing inner after with
  | case1 => cases h
  | case2 => cases h
  | case3 rest =>
    cases h
    exact Nat.lt_succ_self _
  | case4 => cases h
  | case5 c rest _ ih =>
    obtain ⟨⟨innerRest, afterRest⟩, hrest, hpair⟩ := Option.map_eq_some_iff.mp h
    cases hpair
    have hlength : after.length < rest.length := ih hrest
    simp only [List.length_cons]
    omega
  | case6 c rest _ _ _ ih =>
    obtain ⟨⟨innerRest, afterRest⟩, hrest, hpair⟩ := Option.map_eq_some_iff.mp h
    cases hpair
    have hlength : after.length < rest.length := ih hrest
    simp only [List.length_cons]
    omega

/-- `sanitizeYamlEscapes`. -/
def sanitizeYamlEscapes : List Char → List Char
  | [] => []
  | c :: rest =>
    if c = '"' then
      match _hquoted : fixQuoted rest with
      | some (inner, after) => '"' :: inner ++ '"' :: sanitizeYamlEscapes after
      | none => '"' :: sanitizeYamlEscapes rest
    else c :: sanitizeYamlEscapes rest
  termination_by text => text.length
  decreasing_by
    all_goals simp only [List.length_cons]
    · have hlength := length_of_fixQuoted _hquoted
      omega
    · omega
    · omega

section

variable (parseYaml : String → Option (Option Frontmatter))

/-- The frontmatter `parseMd` returns for the content of a file. `parseYaml` is `none` where the
package throws and `some none` on an empty block. -/
def parseMd (content : String) : Frontmatter :=
  match frontmatterBlock content.toList with
  | none => .empty
  | some block =>
    match parseYaml (String.ofList block) with
    | some document => document.getD .empty
    | none =>
      match parseYaml (String.ofList (sanitizeYamlEscapes block)) with
      | some document => document.getD .empty
      | none => .empty

/-- A plan file as its readers see it: reading it throws, or it has the fields of its block, and
is or is not `hasYamlFrontmatter`. -/
inductive MdFile
  | unreadable (error : String)
  | parsed (frontmatter : Frontmatter) (hasYamlFrontmatter : Bool)

/-- The file with a content, or with the error that reading it throws. -/
def MdFile.ofContent : Except String String → MdFile
  | .error error => .unreadable error
  | .ok content => .parsed (parseMd parseYaml content) (hasYamlFrontmatter content)

end

namespace MdFile

/-- `parseMd(path)`, which throws what reading the file throws. -/
def read : MdFile → Except String Frontmatter
  | unreadable error => .error error
  | parsed frontmatter _ => .ok frontmatter

/-- `hasYamlFrontmatter(path)`, where an unreadable file has none. -/
def isListed : MdFile → Bool
  | unreadable _ => false
  | parsed _ listed => listed

end MdFile

end Flockctl.Plan

/-!
# Writing a plan file and reading it back

A plan file is written as its YAML block between two fences and the body below them. The YAML
package writes a block that it parses back to the same fields and that holds no fence of its own;
so what was written is read back, the body without the white space at its ends.
-/

namespace Flockctl.Plan

open Collections

/-- A key the plan store uses. -/
def isFieldName (key : String) : Bool :=
  !key.toList.isEmpty && key.toList.all fun c ↦ ('a' ≤ c && c ≤ 'z') || c == '_'

/-- The characters of `new Date().toISOString()`. -/
def isTimestampChar (c : Char) : Bool := c.isDigit || ['+', '-', ':', '.', 'T', 'Z'].contains c

/-- What `new Date().toISOString()` returns. -/
structure Timestamp where
  text : String
  nonempty : text.toList ≠ []
  plain : text.toList.all isTimestampChar = true

/-- The entries of a frontmatter object that ends with a timestamp. -/
structure IsPlanBlock (entries : List (String × YamlValue)) : Prop where
  distinct : (entries.map Prod.fst).Nodup
  names : ∀ entry ∈ entries, isFieldName entry.1 = true
  stamped : ∃ front key, ∃ stamp : Timestamp, entries = front ++ [(key, .string stamp.text)]

/-- The fields of an object with these entries. -/
def Frontmatter.ofEntries (entries : List (String × YamlValue)) : Frontmatter :=
  fun key ↦ entries.lookup key

/-- The YAML package: `parse` is `none` where it throws and `some none` on an empty document. What
`stringify` makes of a block is, once trimmed, parsed to the fields of the block, and no line of it
but the first starts with three dashes. -/
structure YamlPackage where
  parse : String → Option (Option Frontmatter)
  stringify : List (String × YamlValue) → String
  parse_stringify : ∀ entries, IsPlanBlock entries →
    parse (String.ofList (trim (stringify entries).toList)) = some (some (.ofEntries entries))
  stringify_fence : ∀ entries, IsPlanBlock entries →
    ¬closingFence <:+: trim (stringify entries).toList

/-- `const clean = {}; …`: the entries that are not `undefined`. -/
def cleanEntries (frontmatter : List (String × Option YamlValue)) : List (String × YamlValue) :=
  frontmatter.filterMap fun (key, value) ↦ value.map (key, ·)

/-- `composeMdContent`, given the trimmed text of the block. -/
def composeMdContent (yaml body : String) : String :=
  if body = "" then "---\n" ++ yaml ++ "\n---\n"
  else "---\n" ++ yaml ++ "\n---\n\n" ++ body ++ "\n"

/-- The content that `writeMd` gives a file. -/
def YamlPackage.mdContent (package : YamlPackage) (frontmatter : List (String × Option YamlValue))
    (body : String) : String :=
  composeMdContent
    (String.ofList (trim (package.stringify (cleanEntries frontmatter)).toList)) body

/-- The body `parseMd` returns for the content of a file. -/
def mdBody (content : String) : String :=
  match frontmatterBlock content.toList with
  | none => content
  | some block =>
    String.ofList (trim (content.toList.drop (4 + block.length + closingFence.length)))

theorem untilFence_append_closingFence {block : List Char} (hblock : ¬closingFence <:+: block)
    (rest : List Char) : untilFence (block ++ closingFence ++ rest) = some block := by
  induction block with
  | nil =>
    rw [List.nil_append, closingFence, List.cons_append, untilFence]
    exact if_pos (List.isPrefixOf_iff_prefix.mpr (List.prefix_append _ _))
  | cons c block ih =>
    have hopen : ¬closingFence <+: c :: (block ++ closingFence ++ rest) := by
      intro hstart
      -- an occurrence that ends in the closing fence would put a line break among the dashes
      match block with
      | [] => simp [closingFence] at hstart
      | [_] => simp [closingFence] at hstart
      | [_, _] => simp [closingFence] at hstart
      | d :: e :: f :: block =>
        apply hblock
        have hlength : closingFence.length ≤ (c :: d :: e :: f :: block).length := by
          simp [closingFence]
        apply List.IsPrefix.isInfix
        apply List.prefix_of_prefix_length_le hstart _ hlength
        rw [← List.cons_append, ← List.cons_append, List.append_assoc]
        exact List.prefix_append _ _
    rw [List.cons_append, List.cons_append, untilFence,
      if_neg fun h ↦ hopen (List.isPrefixOf_iff_prefix.mp h),
      ih fun hpart ↦ hblock (hpart.trans (List.suffix_cons c block).isInfix), Option.map_some]

/-- Where the block ends in a composed text, and what follows it up to white space. -/
theorem toList_composeMdContent (yaml body : String) :
    ∃ rest, (composeMdContent yaml body).toList =
      ['-', '-', '-', '\n'] ++ (yaml.toList ++ closingFence ++ rest) ∧
      trim rest = trim body.toList := by
  have hnewline : isWhitespace '\n' = true := by decide
  unfold composeMdContent
  split
  · rename_i hempty
    refine ⟨['\n'], ?_, ?_⟩
    · simp [closingFence]
    · rw [hempty, trim_cons_of_isWhitespace hnewline]
      rfl
  · refine ⟨'\n' :: '\n' :: (body.toList ++ ['\n']), ?_, ?_⟩
    · simp [closingFence]
    · calc trim ('\n' :: '\n' :: (body.toList ++ ['\n']))
          = trim (body.toList ++ ['\n']) := by
            rw [trim_cons_of_isWhitespace hnewline, trim_cons_of_isWhitespace hnewline]
        _ = trim body.toList := trim_concat_of_isWhitespace hnewline _

theorem frontmatterBlock_composeMdContent {yaml : String}
    (hyaml : ¬closingFence <:+: yaml.toList) (body : String) :
    frontmatterBlock (composeMdContent yaml body).toList = some yaml.toList := by
  obtain ⟨rest, htext, _⟩ := toList_composeMdContent yaml body
  rw [htext, frontmatterBlock, if_pos (List.isPrefixOf_iff_prefix.mpr (List.prefix_append _ _))]
  exact untilFence_append_closingFence hyaml rest

theorem mdBody_composeMdContent {yaml : String} (hyaml : ¬closingFence <:+: yaml.toList)
    (body : String) : mdBody (composeMdContent yaml body) = String.ofList (trim body.toList) := by
  obtain ⟨rest, htext, htrim⟩ := toList_composeMdContent yaml body
  have hdrop : (composeMdContent yaml body).toList.drop
      (4 + yaml.toList.length + closingFence.length) = rest := by
    rw [htext, ← List.append_assoc]
    apply List.drop_left'
    simp only [List.length_append, List.length_cons, List.length_nil]
    omega
  rw [mdBody, frontmatterBlock_composeMdContent hyaml]
  dsimp only
  rw [hdrop, htrim]

/-- The fields of a file that has been written are the fields that were written. -/
theorem YamlPackage.parseMd_mdContent (package : YamlPackage)
    {frontmatter : List (String × Option YamlValue)} (h : IsPlanBlock (cleanEntries frontmatter))
    (body : String) :
    parseMd package.parse (package.mdContent frontmatter body) =
      .ofEntries (cleanEntries frontmatter) := by
  have hfence := package.stringify_fence _ h
  have hparse := package.parse_stringify _ h
  rw [parseMd, mdContent, frontmatterBlock_composeMdContent (by rwa [String.toList_ofList])]
  dsimp only
  rw [String.ofList_toList, hparse]
  rfl

/-- And its body is the body that was written, trimmed. -/
theorem YamlPackage.mdBody_mdContent (package : YamlPackage)
    {frontmatter : List (String × Option YamlValue)} (h : IsPlanBlock (cleanEntries frontmatter))
    (body : String) :
    mdBody (package.mdContent frontmatter body) = String.ofList (trim body.toList) :=
  mdBody_composeMdContent (by rw [String.toList_ofList]; exact package.stringify_fence _ h) body

end Flockctl.Plan
