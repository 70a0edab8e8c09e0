import Flockctl.Plan.Tree
import Mathlib.Data.List.Perm.Subperm

/-!
# Slugs of new plan entities

A new milestone gets the slug its order and its title make, numbered when the name is taken. The
readers of the plan tree refuse a slug with two dots in a row or with a first character that is
no letter or digit, and a title with `..` or a negative order does make one.
-/

namespace Flockctl.Plan

open Collections

/-- `toLowerCase()` of a character, up to letters that are no letters of a slug. -/
def toLowerCase (c : Char) : List Char :=
  if 'A' ≤ c && c ≤ 'Z' then [c.toLower]
  else if c = '\u212a' then ['k']
  else if c = '\u0130' then ['i', '\u0307']
  else [c]

/-- Each run of characters that `inRun` accepts is replaced by one dash; `running` says whether
one has just been replaced. -/
def dashRuns (inRun : Char → Bool) : Bool → List Char → List Char
  | _, [] => []
  | running, c :: rest =>
    if inRun c then
      if running then dashRuns inRun true rest else '-' :: dashRuns inRun true rest
    else c :: dashRuns inRun false rest

/-- What `/^[-.]+|[-.]+$/g` removes. -/
def isEdge (c : Char) : Bool := c == '-' || c == '.'

def slugify (name : String) : String :=
  let lower := (trim name.toList).flatMap toLowerCase
  let dashed := dashRuns (fun c ↦ isWhitespace c || c == '_') false lower
  let kept := dashed.filter fun c ↦ isSlugLetter c || c == '.' || c == '-'
  let single := dashRuns (· == '-') false kept
  let stripped := (single.dropWhile isEdge).rdropWhile isEdge
  if stripped = [] then "unnamed" else String.ofList stripped

/-- `null` or a number, as a request can hold it for an order. -/
inductive PlanOrder
  | null
  | integer (value : ℤ)
  /-- a number that is not an integer, or is too large to be written out, as `String(order)`
  writes it -/
  | fraction (text : String)
  deriving DecidableEq, Repr

def PlanOrder.value : PlanOrder → YamlValue
  | .null => .null
  | .integer value => .number value
  | .fraction text => .fraction text

/-- `String(order)`. -/
def PlanOrder.text : PlanOrder → String
  | .null => "null"
  | .integer value => toString value
  | .fraction text => text

def toSlug (order : PlanOrder) (title : String) : String :=
  String.ofList (List.leftpad 2 '0' order.text.toList) ++ "-" ++ slugify title

theorem toSlug_ne_empty (order : PlanOrder) (title : String) : toSlug order title ≠ "" := by
  intro h
  have hlength := congrArg (fun text ↦ text.toList.length) h
  simp [toSlug, String.toList_append] at hlength

/-- The number at the front of a slug, when a dash follows it. -/
def parseOrder (slug : String) : ℕ :=
  let digits := slug.toList.takeWhile Char.isDigit
  if digits ≠ [] ∧ (slug.toList.drop digits.length).head? = some '-' then
    Nat.ofDigitChars 10 digits 0
  else 0

/-- `nextOrder` among the directories with these sorted names. -/
def nextOrder (names : List String) : ℕ :=
  match names.getLast? with
  | none => 0
  | some last => parseOrder last + 1

/-- `slug-2`, `slug-3`, … -/
def numbered (slug : String) (n : ℕ) : String := slug ++ "-" ++ Nat.repr (n + 2)

/-- The first of `slug`, `slug-2`, `slug-3`, … that is none of the names. -/
def firstFree (names : List String) (slug : String) : String :=
  let candidates := slug :: (List.range names.length).map (numbered slug)
  (candidates.find? fun candidate ↦ !names.contains candidate).getD slug

theorem toList_numbered (slug : String) (n : ℕ) :
    (numbered slug n).toList = slug.toList ++ '-' :: Nat.toDigits 10 (n + 2) := by
  rw [numbered, String.toList_append, String.toList_append, Nat.toList_repr, List.append_assoc]
  rfl

theorem numbered_injective (slug : String) : Function.Injective (numbered slug) := by
  intro n m h
  have hlists := congrArg String.toList h
  rw [toList_numbered, toList_numbered, List.append_cancel_left_eq, List.cons.injEq] at hlists
  have hdigits := congrArg (fun digits ↦ Nat.ofDigitChars 10 digits 0) hlists.2
  simp only [Nat.ofDigitChars_ten_toDigits] at hdigits
  omega

theorem numbered_ne (slug : String) (n : ℕ) : numbered slug n ≠ slug := by
  intro h
  have hlength := congrArg (fun text ↦ text.toList.length) h
  simp [toList_numbered] at hlength

/-- Among one more name than there are names one is free. -/
theorem firstFree_not_mem (names : List String) (slug : String) : firstFree names slug ∉ names := by
  have hnodup : (slug :: (List.range names.length).map (numbered slug)).Nodup := by
    rw [List.nodup_cons]
    constructor
    · intro hmem
      obtain ⟨n, _, hn⟩ := List.mem_map.mp hmem
      exact numbered_ne slug n hn
    · exact List.nodup_range.map (numbered_injective slug)
  cases hfound : (slug :: (List.range names.length).map (numbered slug)).find?
      fun candidate ↦ !names.contains candidate with
  | some free =>
    have hfree := List.find?_some hfound
    rw [firstFree, hfound]
    simpa using hfree
  | none =>
    have hsubset : slug :: (List.range names.length).map (numbered slug) ⊆ names := by
      intro candidate hcandidate
      have htaken := List.find?_eq_none.mp hfound candidate hcandidate
      simpa using htaken
    have hlength := (hnodup.subperm hsubset).length_le
    rw [List.length_cons, List.length_map, List.length_range] at hlength
    omega

theorem firstFree_eq (names : List String) (slug : String) :
    firstFree names slug = slug ∨ ∃ n, firstFree names slug = numbered slug n := by
  cases hfound : (slug :: (List.range names.length).map (numbered slug)).find?
      fun candidate ↦ !names.contains candidate with
  | none =>
    left
    rw [firstFree, hfound, Option.getD_none]
  | some free =>
    rw [firstFree, hfound, Option.getD_some]
    rcases List.mem_cons.mp (List.mem_of_find?_eq_some hfound) with hslug | hmem
    · exact Or.inl hslug
    · obtain ⟨n, _, hn⟩ := List.mem_map.mp hmem
      exact Or.inr ⟨n, hn.symm⟩

theorem isSlugLetter_of_isDigit {c : Char} (h : c.isDigit = true) : isSlugLetter c = true := by
  have hrange : '0' ≤ c ∧ c ≤ '9' := by
    rw [Char.isDigit, Bool.and_eq_true, decide_eq_true_iff, decide_eq_true_iff] at h
    exact h
  simp [isSlugLetter, hrange.1, hrange.2]

theorem isSlugLetter_of_mem_toDigits {n : ℕ} {c : Char} (h : c ∈ Nat.toDigits 10 n) :
    isSlugLetter c = true :=
  isSlugLetter_of_isDigit (Nat.isDigit_of_mem_toDigits (by decide) (by decide) h)

theorem dots_infix_append {digits : List Char} (hdigits : '.' ∉ digits) (front : List Char) :
    ['.', '.'] <:+: front ++ '-' :: digits ↔ ['.', '.'] <:+: front := by
  induction front with
  | nil =>
    rw [List.nil_append, List.infix_cons_iff, List.infix_nil]
    constructor
    · rintro (hstart | hpart)
      · cases (List.cons_prefix_cons.mp hstart).1
      · exact absurd (hpart.subset List.mem_cons_self) hdigits
    · intro hnil
      cases hnil
  | cons c front ih =>
    rw [List.cons_append, List.infix_cons_iff, List.infix_cons_iff, ih]
    apply or_congr_left
    rw [List.cons_prefix_cons, List.cons_prefix_cons]
    cases front with
    | nil => simp
    | cons d front => simp

theorem isSafePlanSlug_numbered (slug : String) (n : ℕ) (hslug : slug ≠ "") :
    isSafePlanSlug (numbered slug n) = isSafePlanSlug slug := by
  have hletters : ∀ c ∈ Nat.toDigits 10 (n + 2), isSlugLetter c = true := fun c hc ↦
    isSlugLetter_of_mem_toDigits hc
  have hdots : '.' ∉ Nat.toDigits 10 (n + 2) := fun hmem ↦ absurd (hletters _ hmem) (by decide)
  have hnul : '\x00' ∉ Nat.toDigits 10 (n + 2) := fun hmem ↦ absurd (hletters _ hmem) (by decide)
  obtain ⟨c, rest, hcons⟩ : ∃ c rest, slug.toList = c :: rest :=
    List.exists_cons_of_ne_nil fun hnil ↦ hslug (String.toList_eq_nil_iff.mp hnil)
  have hmatches : matchesSlug (slug.toList ++ '-' :: Nat.toDigits 10 (n + 2)) =
      matchesSlug slug.toList := by
    have hdigits : (Nat.toDigits 10 (n + 2)).all
        (fun d ↦ isSlugLetter d || d == '.' || d == '_' || d == '-') = true := by
      rw [List.all_eq_true]
      intro d hd
      rw [hletters d hd]
      rfl
    rw [hcons, List.cons_append, matchesSlug, matchesSlug, List.all_append, List.all_cons, hdigits]
    simp
  have hclimbs : climbs (slug.toList ++ '-' :: Nat.toDigits 10 (n + 2)) = climbs slug.toList := by
    have hpart := dots_infix_append hdots slug.toList
    simp [climbs, hpart, hnul]
  rw [isSafePlanSlug, isSafePlanSlug, toList_numbered, hmatches, hclimbs]

theorem isSafePlanSlug_firstFree (names : List String) (slug : String) (hslug : slug ≠ "") :
    isSafePlanSlug (firstFree names slug) = isSafePlanSlug slug := by
  rcases firstFree_eq names slug with hfree | ⟨n, hfree⟩
  · rw [hfree]
  · rw [hfree, isSafePlanSlug_numbered slug n hslug]

end Flockctl.Plan
