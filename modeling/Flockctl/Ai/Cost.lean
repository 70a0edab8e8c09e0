import Mathlib.Data.Rat.Floor
import Mathlib.Data.List.DropRight
import Mathlib.Data.List.Infix

/-!
# What a call costs

`calculateCost` prices a call by the table of its provider: by the entry under the model's name, or
by the first entry whose key contains the name or is contained in it. A table is read as a plain
object of JavaScript, so a name every object inherits finds a member that has no rates.

Rates, counts and costs are rational numbers; the rounding of the doubles that carry them is left
out.
-/

namespace Flockctl.Ai.Cost

structure ModelPricing where
  inputPer1M : ℚ
  outputPer1M : ℚ
  cacheCreationPer1M : Option ℚ := none
  cacheReadPer1M : Option ℚ := none
  deriving DecidableEq

abbrev PricingTable := List (String × ModelPricing)

def anthropic : PricingTable :=
  [("claude-opus-4-7", ⟨5, 25, some 6.25, some 0.5⟩),
    ("claude-sonnet-4-6", ⟨3, 15, some 3.75, some 0.3⟩),
    ("claude-haiku-4-5", ⟨0.8, 4, some 1, some 0.08⟩)]

def openai : PricingTable :=
  [("gpt-4o", ⟨2.5, 10, none, none⟩),
    ("gpt-4o-mini", ⟨0.15, 0.6, none, none⟩),
    ("gpt-4-turbo", ⟨10, 30, none, none⟩),
    ("o3", ⟨10, 40, none, none⟩),
    ("o3-mini", ⟨1.1, 4.4, none, none⟩)]

def google : PricingTable :=
  [("gemini-2.5-pro", ⟨1.25, 10, none, none⟩),
    ("gemini-2.5-flash", ⟨0.15, 0.6, none, none⟩),
    ("gemini-2.0-flash", ⟨0.1, 0.4, none, none⟩)]

def mistral : PricingTable :=
  [("mistral-large-latest", ⟨2, 6, none, none⟩),
    ("mistral-medium-latest", ⟨2.7, 8.1, none, none⟩),
    ("codestral-latest", ⟨0.3, 0.9, none, none⟩)]

def PRICING : List (String × PricingTable) :=
  [("anthropic", anthropic), ("openai", openai), ("google", google), ("mistral", mistral),
    ("github_copilot", [])]

def PROVIDER_ALIASES : List (String × String) := [("claude_cli", "anthropic")]

/-- The names every object inherits a member under. -/
def inheritedNames : List String :=
  ["constructor", "hasOwnProperty", "isPrototypeOf", "propertyIsEnumerable", "toLocaleString",
    "toString", "valueOf", "__defineGetter__", "__defineSetter__", "__lookupGetter__",
    "__lookupSetter__", "__proto__"]

/-- `PRICING[PROVIDER_ALIASES[provider] ?? provider]`. An inherited member of the aliases is no
provider: its text, read as a key, names no table. -/
def providerPricing (provider : String) : Option PricingTable :=
  if inheritedNames.contains provider then none
  else PRICING.lookup ((PROVIDER_ALIASES.lookup provider).getD provider)

/-- `text.includes(part)`. -/
def Includes (text part : String) : Prop := part.toList <:+: text.toList

instance (text part : String) : Decidable (Includes text part) :=
  inferInstanceAs (Decidable (_ <:+: _))

/-- What a look-up in a table finds: rates, or a member every object inherits. -/
inductive Found
  | rates (pricing : ModelPricing)
  | inherited
  deriving DecidableEq

def modelPricing (table : PricingTable) (model : String) : Option Found :=
  match table.lookup model with
  | some pricing => some (.rates pricing)
  | none =>
    if inheritedNames.contains model then some .inherited
    else
      (table.find? fun entry => Includes model entry.1 ∨ Includes entry.1 model).map
        fun entry => .rates entry.2

/-- The counts of a call. -/
structure Tokens where
  inputTokens : ℚ
  outputTokens : ℚ
  cacheCreationTokens : ℚ := 0
  cacheReadTokens : ℚ := 0

/-- What cached tokens add; a count of zero and a rate that is missing or zero add nothing. -/
def cacheCost (tokens : ℚ) (per1M : Option ℚ) : ℚ :=
  match per1M with
  | none => 0
  | some rate => if tokens > 0 ∧ rate ≠ 0 then tokens / 1000000 * rate else 0

/-- `Math.round(cost * 1_000_000) / 1_000_000`. -/
def roundedCost (cost : ℚ) : ℚ := ⌊cost * 1000000 + 1 / 2⌋ / 1000000

def charge (pricing : ModelPricing) (tokens : Tokens) : ℚ :=
  roundedCost
    (tokens.inputTokens / 1000000 * pricing.inputPer1M
      + tokens.outputTokens / 1000000 * pricing.outputPer1M
      + cacheCost tokens.cacheCreationTokens pricing.cacheCreationPer1M
      + cacheCost tokens.cacheReadTokens pricing.cacheReadPer1M)

/-- The cost of a call; `none` is not a number. -/
def calculateCost (provider model : String) (tokens : Tokens) : Option ℚ :=
  match providerPricing provider with
  | none => some 0
  | some table =>
    match modelPricing table model with
    | none => some 0
    | some .inherited => none
    | some (.rates pricing) => some (charge pricing tokens)

def isDateChar (c : Char) : Bool := c.isDigit || c == '-'

/-- The name of a listed model, a dash and a date. -/
def DatedVariant (listed model : String) : Prop :=
  ∃ date, model.toList = listed.toList ++ '-' :: date ∧ ∀ c ∈ date, isDateChar c = true

/-- The entries of a provider; a provider without a table has none. -/
def entriesOf (provider : String) : PricingTable := (providerPricing provider).getD []

/-- A model is billed by the entry under its own name, else by a longest entry contained in its
name, and it costs nothing without one. -/
structure MostSpecific (provider model : String) : Prop where
  exact : ∀ pricing, (model, pricing) ∈ entriesOf provider →
    ∀ tokens, calculateCost provider model tokens = some (charge pricing tokens)
  longest : model ∉ (entriesOf provider).map Prod.fst →
    (∃ entry ∈ entriesOf provider, Includes model entry.1) →
    ∃ entry ∈ entriesOf provider, Includes model entry.1 ∧
      (∀ other ∈ entriesOf provider, Includes model other.1 → other.1.length ≤ entry.1.length) ∧
      ∀ tokens, calculateCost provider model tokens = some (charge entry.2 tokens)
  unlisted : (∀ entry ∈ entriesOf provider, ¬ Includes model entry.1) →
    ∀ tokens, calculateCost provider model tokens = some 0
  dated : ∀ entry ∈ entriesOf provider, DatedVariant entry.1 model →
    ∀ tokens, calculateCost provider model tokens = some (charge entry.2 tokens)

/-- When the table of a provider, read in its order, leads to the most specific entry. -/
def ReadsSpecific (table : PricingTable) (model : String) : Prop :=
  model ∈ table.map Prod.fst ∨
    (model ∉ inheritedNames ∧
      (∀ first ∈ table.find? fun entry => Includes model entry.1,
        ∀ other ∈ table, Includes model other.1 → other.1.length ≤ first.1.length) ∧
      ((∀ entry ∈ table, ¬ Includes model entry.1) → ∀ entry ∈ table, ¬ Includes entry.1 model))

/-! ## The tables -/

/-- A million tokens each way. -/
def probe : Tokens := ⟨1000000, 1000000, 0, 0⟩

/-- The part of a key before its digits and dashes at the end. -/
def stem (key : String) : List Char := key.toList.rdropWhile isDateChar

/-- What the tables have in common: no key contains a later one, the entries are told apart by
their rates, and a key whose stem lies in a key that is no longer is that key. -/
structure TableFacts (table : PricingTable) : Prop where
  lookup : ∀ entry ∈ table, table.lookup entry.1 = some entry.2
  nested : table.Pairwise fun entry later => ¬ Includes entry.1 later.1
  apart : ∀ entry ∈ table, ∀ other ∈ table,
    charge entry.2 probe = charge other.2 probe → entry = other
  charged : ∀ entry ∈ table, charge entry.2 probe ≠ 0
  stems : ∀ entry ∈ table, ∀ other ∈ table,
    entry.1.length ≤ other.1.length → stem other.1 <:+: entry.1.toList → other = entry

theorem tableFacts_of_mem {name : String} {table : PricingTable}
    (h : (name, table) ∈ PRICING) : TableFacts table := by
  have hlookup : ∀ tariff ∈ PRICING, ∀ entry ∈ tariff.2,
      tariff.2.lookup entry.1 = some entry.2 := by decide +kernel
  have hnested : ∀ tariff ∈ PRICING,
      tariff.2.Pairwise fun entry later => ¬ Includes entry.1 later.1 := by decide +kernel
  have hapart : ∀ tariff ∈ PRICING, ∀ entry ∈ tariff.2, ∀ other ∈ tariff.2,
      charge entry.2 probe = charge other.2 probe → entry = other := by decide +kernel
  have hcharged : ∀ tariff ∈ PRICING, ∀ entry ∈ tariff.2, charge entry.2 probe ≠ 0 := by
    decide +kernel
  have hstems : ∀ tariff ∈ PRICING, ∀ entry ∈ tariff.2, ∀ other ∈ tariff.2,
      entry.1.length ≤ other.1.length → stem other.1 <:+: entry.1.toList → other = entry := by
    decide +kernel
  exact ⟨hlookup _ h, hnested _ h, hapart _ h, hcharged _ h, hstems _ h⟩

theorem mem_of_lookup {α : Type} {key : String} {value : α} {entries : List (String × α)}
    (h : entries.lookup key = some value) : (key, value) ∈ entries := by
  induction entries with
  | nil => cases h
  | cons entry rest ih =>
    rw [List.lookup_cons] at h
    by_cases hkey : key == entry.1
    · rw [hkey] at h
      have hvalue : entry.2 = value := Option.some.inj h
      rw [beq_iff_eq] at hkey
      rw [hkey, ← hvalue]
      exact List.mem_cons_self
    · rw [Bool.not_eq_true] at hkey
      rw [hkey] at h
      exact List.mem_cons_of_mem entry (ih h)

theorem tableFacts {provider : String} {table : PricingTable}
    (h : providerPricing provider = some table) : TableFacts table := by
  rw [providerPricing] at h
  split_ifs at h
  exact tableFacts_of_mem (mem_of_lookup h)

theorem lookup_eq_none {table : PricingTable} {model : String}
    (h : model ∉ table.map Prod.fst) : table.lookup model = none := by
  cases hlookup : table.lookup model with
  | none => rfl
  | some pricing => exact absurd (List.mem_map_of_mem (mem_of_lookup hlookup)) h

/-- A contained key is found before any key that contains the name. -/
theorem find_of_contained {table : PricingTable} {model : String}
    (hnested : table.Pairwise fun entry later => ¬ Includes entry.1 later.1)
    (hcontained : ∃ entry ∈ table, Includes model entry.1) :
    (table.find? fun entry => Includes model entry.1 ∨ Includes entry.1 model) =
      table.find? fun entry => Includes model entry.1 := by
  induction table with
  | nil => rfl
  | cons entry rest ih =>
    by_cases hin : Includes model entry.1
    · rw [List.find?_cons_of_pos (by simp [hin]), List.find?_cons_of_pos (by simp [hin])]
    · obtain ⟨later, hlater, hpart⟩ : ∃ later ∈ rest, Includes model later.1 := by
        obtain ⟨later, hmem, hpart⟩ := hcontained
        rcases List.mem_cons.mp hmem with rfl | hrest
        · exact absurd hpart hin
        · exact ⟨later, hrest, hpart⟩
      have hnot : ¬ Includes entry.1 model := by
        intro hmodel
        exact (List.pairwise_cons.mp hnested).1 later hlater (hpart.trans hmodel)
      rw [List.find?_cons_of_neg (by simp [hin, hnot]), List.find?_cons_of_neg (by simp [hin])]
      exact ih (List.pairwise_cons.mp hnested).2 ⟨later, hlater, hpart⟩

/-! ## What is billed -/

section

variable {provider model : String} {table : PricingTable}
  (htable : providerPricing provider = some table)

include htable

theorem entriesOf_eq : entriesOf provider = table := by
  rw [entriesOf, htable, Option.getD_some]

theorem cost_of_listed {pricing : ModelPricing} (h : (model, pricing) ∈ table) (tokens : Tokens) :
    calculateCost provider model tokens = some (charge pricing tokens) := by
  simp only [calculateCost, htable, modelPricing, (tableFacts htable).lookup _ h]

theorem cost_of_inherited (hlisted : model ∉ table.map Prod.fst)
    (h : model ∈ inheritedNames) (tokens : Tokens) :
    calculateCost provider model tokens = none := by
  have hcontains : inheritedNames.contains model = true := List.contains_iff_mem.mpr h
  simp only [calculateCost, htable, modelPricing, lookup_eq_none hlisted, hcontains, if_true]

theorem cost_of_part (hlisted : model ∉ table.map Prod.fst)
    (h : model ∉ inheritedNames) (tokens : Tokens) :
    calculateCost provider model tokens =
      some (((table.find? fun entry =>
        Includes model entry.1 ∨ Includes entry.1 model).map fun entry =>
          charge entry.2 tokens).getD 0) := by
  have hcontains : inheritedNames.contains model = false := by
    rw [Bool.eq_false_iff]
    exact fun hmem => h (List.contains_iff_mem.mp hmem)
  simp only [calculateCost, htable, modelPricing, lookup_eq_none hlisted, hcontains]
  cases table.find? fun entry => Includes model entry.1 ∨ Includes entry.1 model with
  | none => rfl
  | some entry => rfl

/-- A name that contains a key is billed by the first key it contains. -/
theorem cost_of_contained (hlisted : model ∉ table.map Prod.fst)
    (h : model ∉ inheritedNames) {first : String × ModelPricing}
    (hfirst : (table.find? fun entry => Includes model entry.1) = some first) (tokens : Tokens) :
    calculateCost provider model tokens = some (charge first.2 tokens) := by
  have hcontained : ∃ entry ∈ table, Includes model entry.1 :=
    ⟨first, List.mem_of_find?_eq_some hfirst, by simpa using List.find?_some hfirst⟩
  rw [cost_of_part htable hlisted h, find_of_contained (tableFacts htable).nested hcontained,
    hfirst, Option.map_some, Option.getD_some]

end

/-! ## Dated variants -/

/-- A part that ends before the date lies before the date. -/
theorem infix_of_undated {part front tail : List Char} (hpart : part <:+: front ++ tail)
    (htail : ∀ c ∈ tail, isDateChar c = true)
    (hlast : ∀ c ∈ part.getLast?, isDateChar c = false) : part <:+: front := by
  induction tail using List.reverseRecOn with
  | nil => rwa [List.append_nil] at hpart
  | append_singleton tail last ih =>
    rw [← List.append_assoc, List.infix_concat_iff] at hpart
    rcases hpart with hsuffix | hinfix
    · cases part using List.reverseRecOn with
      | nil => exact List.nil_infix
      | append_singleton part c =>
        have hc : c = last := by
          have h := hsuffix.getLast (by simp)
          simpa using h
        have hdate : isDateChar c = true := htail c (by simp [hc])
        have hplain : isDateChar c = false := hlast c (by simp)
        rw [hdate] at hplain
        cases hplain
    · exact ih hinfix (fun c hc => htail c (List.mem_append_left _ hc))

theorem stem_last (key : String) : ∀ c ∈ (stem key).getLast?, isDateChar c = false := by
  intro c hc
  have hidem : (stem key).rdropWhile isDateChar = stem key := List.rdropWhile_idempotent _ _
  rw [List.rdropWhile_eq_self_iff] at hidem
  rw [Option.mem_def, List.getLast?_eq_some_iff] at hc
  obtain ⟨front, hfront⟩ := hc
  have hlast := hidem (by simp [hfront])
  simpa [hfront] using hlast

/-- Of the keys in the name of a dated variant none is longer than the listed key, and no other is
as long. -/
theorem eq_of_datedVariant {table : PricingTable} (hfacts : TableFacts table) {model : String}
    {entry other : String × ModelPricing} (hentry : entry ∈ table) (hother : other ∈ table)
    (hdated : DatedVariant entry.1 model) (hin : Includes model other.1)
    (hlong : entry.1.length ≤ other.1.length) : other = entry := by
  obtain ⟨date, hmodel, hdate⟩ := hdated
  apply hfacts.stems entry hentry other hother hlong
  have hstem : stem other.1 <:+: entry.1.toList ++ '-' :: date := by
    rw [← hmodel]
    exact (List.rdropWhile_prefix _ _).isInfix.trans hin
  apply infix_of_undated hstem _ (stem_last other.1)
  intro c hc
  rcases List.mem_cons.mp hc with rfl | hc
  · rfl
  · exact hdate c hc

theorem DatedVariant.includes {listed model : String} (h : DatedVariant listed model) :
    Includes model listed := by
  obtain ⟨date, hmodel, -⟩ := h
  rw [Includes, hmodel]
  exact (List.prefix_append _ _).isInfix

theorem DatedVariant.length_lt {listed model : String} (h : DatedVariant listed model) :
    listed.length < model.length := by
  obtain ⟨date, hmodel, -⟩ := h
  have hlength := congrArg List.length hmodel
  rw [List.length_append, List.length_cons, String.length_toList, String.length_toList] at hlength
  omega

/-- A dated variant is no key of its table. -/
theorem DatedVariant.not_listed {table : PricingTable} (hfacts : TableFacts table)
    {model : String} {entry : String × ModelPricing} (hentry : entry ∈ table)
    (hdated : DatedVariant entry.1 model) : model ∉ table.map Prod.fst := by
  intro hmem
  obtain ⟨listed, hlisted, rfl⟩ := List.mem_map.mp hmem
  have hlt := hdated.length_lt
  rw [eq_of_datedVariant hfacts hentry hlisted hdated List.infix_rfl hlt.le] at hlt
  exact absurd hlt (lt_irrefl _)

/-! ## The law -/

/-- The first contained key, where it is a longest one. -/
theorem exists_longest {table : PricingTable} {model : String}
    (hfirst : ∀ first ∈ table.find? fun entry => Includes model entry.1,
      ∀ other ∈ table, Includes model other.1 → other.1.length ≤ first.1.length)
    (hcontained : ∃ entry ∈ table, Includes model entry.1) :
    ∃ first, (table.find? fun entry => Includes model entry.1) = some first ∧ first ∈ table ∧
      Includes model first.1 ∧
      ∀ other ∈ table, Includes model other.1 → other.1.length ≤ first.1.length := by
  have hsome : (table.find? fun entry => Includes model entry.1).isSome := by
    rw [List.find?_isSome]
    simpa using hcontained
  obtain ⟨first, hfind⟩ := Option.isSome_iff_exists.mp hsome
  exact ⟨first, hfind, List.mem_of_find?_eq_some hfind, by simpa using List.find?_some hfind,
    hfirst first hfind⟩

theorem mostSpecific_of_readsSpecific {provider model : String}
    (h : ∀ table ∈ providerPricing provider, ReadsSpecific table model) :
    MostSpecific provider model := by
  cases htable : providerPricing provider with
  | none =>
    have hentries : entriesOf provider = [] := by rw [entriesOf, htable, Option.getD_none]
    have hcost : ∀ tokens, calculateCost provider model tokens = some 0 := by
      intro tokens
      simp only [calculateCost, htable]
    constructor
    · intro pricing hmem
      rw [hentries] at hmem
      cases hmem
    · rintro - ⟨entry, hmem, -⟩
      rw [hentries] at hmem
      cases hmem
    · exact fun _ => hcost
    · intro entry hmem
      rw [hentries] at hmem
      cases hmem
  | some table =>
    have hfacts := tableFacts htable
    have hentries := entriesOf_eq htable
    have hself : model ∈ table.map Prod.fst → ∃ pricing, (model, pricing) ∈ table := by
      simp
    constructor
    · intro pricing hmem
      rw [hentries] at hmem
      exact cost_of_listed htable hmem
    · rw [hentries]
      intro hlisted hcontained
      rcases h table htable with hmem | ⟨hinherited, hfirst, -⟩
      · exact absurd hmem hlisted
      · obtain ⟨first, hfind, hmem, hin, hlong⟩ := exists_longest hfirst hcontained
        exact ⟨first, hmem, hin, hlong, cost_of_contained htable hlisted hinherited hfind⟩
    · rw [hentries]
      intro hnone tokens
      have hlisted : model ∉ table.map Prod.fst := by
        intro hmem
        obtain ⟨pricing, hpricing⟩ := hself hmem
        exact hnone _ hpricing List.infix_rfl
      rcases h table htable with hmem | ⟨hinherited, -, hpart⟩
      · exact absurd hmem hlisted
      · have hfind : (table.find? fun entry =>
            Includes model entry.1 ∨ Includes entry.1 model) = none := by
          rw [List.find?_eq_none]
          intro entry hentry
          simpa using ⟨hnone entry hentry, hpart hnone entry hentry⟩
        rw [cost_of_part htable hlisted hinherited, hfind, Option.map_none, Option.getD_none]
    · rw [hentries]
      intro entry hentry hdated tokens
      have hlisted := hdated.not_listed hfacts hentry
      rcases h table htable with hmem | ⟨hinherited, hfirst, -⟩
      · exact absurd hmem hlisted
      · obtain ⟨first, hfind, hmem, hin, hlong⟩ :=
          exists_longest hfirst ⟨entry, hentry, hdated.includes⟩
        have hsame : first = entry :=
          eq_of_datedVariant hfacts hentry hmem hdated hin (hlong entry hentry hdated.includes)
        rw [cost_of_contained htable hlisted hinherited hfind, hsame]

theorem readsSpecific_of_mostSpecific {provider model : String}
    (h : MostSpecific provider model) :
    ∀ table ∈ providerPricing provider, ReadsSpecific table model := by
  intro table htable
  rw [Option.mem_def] at htable
  have hfacts := tableFacts htable
  have hentries := entriesOf_eq htable
  by_cases hlisted : model ∈ table.map Prod.fst
  · exact Or.inl hlisted
  · right
    have hlongest := h.longest
    have hunlisted := h.unlisted
    rw [hentries] at hlongest hunlisted
    have hinherited : model ∉ inheritedNames := by
      intro hmem
      have hcost := cost_of_inherited htable hlisted hmem probe
      by_cases hcontained : ∃ entry ∈ table, Includes model entry.1
      · obtain ⟨entry, -, -, -, hbilled⟩ := hlongest hlisted hcontained
        rw [hbilled probe] at hcost
        cases hcost
      · push Not at hcontained
        rw [hunlisted hcontained probe] at hcost
        cases hcost
    refine ⟨hinherited, ?_, ?_⟩
    · intro first hfind
      rw [Option.mem_def] at hfind
      have hmem : first ∈ table := List.mem_of_find?_eq_some hfind
      have hin : Includes model first.1 := by simpa using List.find?_some hfind
      obtain ⟨entry, hentry, -, hlong, hbilled⟩ := hlongest hlisted ⟨first, hmem, hin⟩
      -- The first contained key is billed, so its rates are those of the longest one.
      have hcost := cost_of_contained htable hlisted hinherited hfind probe
      rw [hbilled probe] at hcost
      rw [← hfacts.apart entry hentry first hmem (Option.some.inj hcost)]
      exact hlong
    · intro hnone entry hentry hpart
      have hcost := cost_of_part htable hlisted hinherited probe
      rw [hunlisted hnone probe] at hcost
      cases hfind : table.find? fun entry => Includes model entry.1 ∨ Includes entry.1 model with
      | none =>
        have hnot := List.find?_eq_none.mp hfind entry hentry
        simp [hpart] at hnot
      | some found =>
        rw [hfind, Option.map_some, Option.getD_some] at hcost
        exact hfacts.charged found (List.mem_of_find?_eq_some hfind) (Option.some.inj hcost).symm

/-- The most specific entry is billed exactly when the provider has no table or reading its table
in order leads to that entry. -/
theorem mostSpecific_iff (provider model : String) :
    MostSpecific provider model ↔ ∀ table ∈ providerPricing provider, ReadsSpecific table model :=
  ⟨readsSpecific_of_mostSpecific, mostSpecific_of_readsSpecific⟩

/-- A dated variant of `gpt-4o-mini` is billed at the rate of `gpt-4o`. -/
theorem not_mostSpecific : ¬ ∀ provider model, MostSpecific provider model := by
  intro h
  have hdated := (h "openai" "gpt-4o-mini-2024-07-18").dated
    ("gpt-4o-mini", ⟨0.15, 0.6, none, none⟩) (by decide +kernel)
    ⟨"2024-07-18".toList, by decide +kernel, List.all_eq_true.mp (by decide +kernel)⟩ probe
  revert hdated
  decide +kernel

end Flockctl.Ai.Cost
