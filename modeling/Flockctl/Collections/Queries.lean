import Flockctl.Collections.JsMap
import Mathlib.Data.List.Dedup
import Mathlib.Data.List.Sort
import Mathlib.Data.List.ReduceOption
import Mathlib.Algebra.BigOperators.Group.List.Basic
import Mathlib.Order.MinMax

/-!
# Queries over lists of rows

The aggregates, joins, groups and orders of a query, on tables that are lists of rows. A missing
value is `none`: an aggregate leaves it out and an order puts it below every value. The rows of a
table come in no particular order, so each operation is shown to have the same result, or one with
the same rows, however the tables are listed.
-/

namespace Flockctl.Collections.Queries

universe u v w

variable {Row : Type u} {Key : Type v} {Value : Type w}

/-- `SUM`, which is missing where no value is given. -/
def sumOf [Add Value] [Zero Value] (values : List (Option Value)) : Option Value :=
  match values.reduceOption with
  | [] => none
  | value :: rest => some (value :: rest).sum

/-- `MAX`. -/
def maxOf [Max Value] (values : List (Option Value)) : Option Value := values.reduceOption.max?

theorem sumOf_perm [AddCommMonoid Value] {values other : List (Option Value)}
    (h : values.Perm other) : sumOf values = sumOf other := by
  have hgiven : values.reduceOption.Perm other.reduceOption := h.filterMap id
  unfold sumOf
  cases hvalues : values.reduceOption with
  | nil => rw [hvalues] at hgiven; rw [hgiven.nil_eq]
  | cons first rest =>
    rw [hvalues] at hgiven
    cases hother : other.reduceOption with
    | nil => rw [hother] at hgiven; cases hgiven.eq_nil
    | cons head tail =>
      rw [hother] at hgiven
      exact congrArg some hgiven.sum_eq

/-- A missing value is below every other. -/
def NullsFirst [LE Value] : Option Value → Option Value → Prop
  | none, _ => True
  | some _, none => False
  | some value, some other => value ≤ other

instance [LE Value] [DecidableLE Value] (value other : Option Value) :
    Decidable (NullsFirst value other) := by
  cases value <;> cases other <;> unfold NullsFirst <;> infer_instance

theorem NullsFirst.total [LinearOrder Value] (value other : Option Value) :
    NullsFirst value other ∨ NullsFirst other value := by
  cases value with
  | none => exact Or.inl trivial
  | some value =>
    cases other with
    | none => exact Or.inr trivial
    | some other => exact le_total value other

theorem NullsFirst.trans [LinearOrder Value] {first second third : Option Value}
    (hfirst : NullsFirst first second) (hsecond : NullsFirst second third) :
    NullsFirst first third := by
  cases first with
  | none => trivial
  | some first =>
    cases second with
    | none => exact hfirst.elim
    | some second =>
      cases third with
      | none => exact hsecond.elim
      | some third => exact le_trans (a := first) hfirst hsecond

/-- The value that no other is above is the largest. -/
theorem maxOf_eq [LinearOrder Value] {values : List (Option Value)}
    {largest : Option Value} (hmem : largest ∈ values)
    (hle : ∀ value ∈ values, NullsFirst value largest) : maxOf values = largest := by
  unfold maxOf
  cases largest with
  | none =>
    refine List.max?_eq_none_iff.mpr (List.eq_nil_iff_forall_not_mem.mpr fun value hvalue ↦ ?_)
    exact hle (some value) (List.reduceOption_mem_iff.mp hvalue)
  | some largest =>
    have hlargest : ∀ value ∈ values.reduceOption, value ≤ largest := fun value hvalue ↦
      hle (some value) (List.reduceOption_mem_iff.mp hvalue)
    have : Std.LawfulOrderMax Value := .of_max_le_iff (fun _ _ _ ↦ max_le_iff) max_choice
    exact List.max?_eq_some_iff.mpr ⟨List.reduceOption_mem_iff.mpr hmem, hlargest⟩

/-- `INNER JOIN … ON`. -/
def innerJoin (rows : List Row) (others : List Value) (on : Row → Value → Bool) :
    List (Row × Value) :=
  rows.flatMap fun row ↦ (others.filter (on row)).map (row, ·)

theorem innerJoin_perm {rows listed : List Row} {others listedOthers : List Value}
    (hrows : rows.Perm listed) (hothers : others.Perm listedOthers) (on : Row → Value → Bool) :
    (innerJoin rows others on).Perm (innerJoin listed listedOthers on) :=
  hrows.flatMap fun row _ ↦ (hothers.filter (on row)).map (row, ·)

variable [DecidableEq Key]

/-- `GROUP BY`, with the rows of each group. -/
def groupBy (key : Row → Key) (rows : List Row) : List (Key × List Row) :=
  (rows.map key).dedup.map fun one ↦ (one, rows.filter fun row ↦ key row = one)

/-- The group of a key, if it has rows. -/
theorem filter_groupBy (key : Row → Key) (rows : List Row) (one : Key) :
    (groupBy key rows).filter (fun group ↦ group.1 = one) =
      if rows.filter (fun row ↦ key row = one) = [] then []
      else [(one, rows.filter fun row ↦ key row = one)] := by
  have hkeys : (rows.map key).dedup.filter (fun other ↦ other = one) =
      if one ∈ rows.map key then [one] else [] := by
    rw [List.filter_eq, List.count_dedup]
    split <;> rfl
  have hsome : one ∈ rows.map key ↔ rows.filter (fun row ↦ key row = one) ≠ [] := by
    simp [List.filter_eq_nil_iff]
  unfold groupBy
  rw [List.filter_map]
  change ((rows.map key).dedup.filter fun other ↦ other = one).map _ = _
  rw [hkeys]
  by_cases hmem : one ∈ rows.map key
  · rw [if_pos hmem, if_neg (hsome.mp hmem)]
    rfl
  · rw [if_neg hmem, if_pos (not_not.mp fun h ↦ hmem (hsome.mpr h))]
    rfl

/-- Every row with a key changes what a map has under this key. -/
def mergeRows (key : Row → Option Key) (change : Row → Value → Value) (rows : List Row)
    (map : JsMap Key Value) : JsMap Key Value :=
  rows.foldl (fun map row ↦
    match key row with
    | none => map
    | some one => map.modify one (change row)) map

theorem get_mergeRows (key : Row → Option Key) (change : Row → Value → Value) (rows : List Row)
    (map : JsMap Key Value) (one : Key) :
    (mergeRows key change rows map).get one = (map.get one).map fun value ↦
      (rows.filter fun row ↦ key row = some one).foldl (fun value row ↦ change row value) value := by
  unfold mergeRows
  induction rows generalizing map with
  | nil => simp
  | cons row rest ih =>
    rw [List.foldl_cons, ih]
    cases hkey : key row with
    | none => simp [hkey]
    | some other =>
      dsimp only
      rw [JsMap.get_modify]
      by_cases hother : one = other
      · subst hother
        simp [hkey, Option.map_map, Function.comp_def]
      · simp [hkey, hother, Ne.symm hother]

/-- Every row sets its key. -/
def setRows (key : Row → Key) (value : Row → Value) (rows : List Row) (map : JsMap Key Value) :
    JsMap Key Value :=
  rows.foldl (fun map row ↦ map.set (key row) (value row)) map

/-- The last row of a key decides. -/
theorem get_setRows (key : Row → Key) (value : Row → Value) (rows : List Row)
    (map : JsMap Key Value) (one : Key) :
    (setRows key value rows map).get one =
      ((rows.filter fun row ↦ key row = one).getLast?.map value).or (map.get one) := by
  unfold setRows
  induction rows generalizing map with
  | nil => rfl
  | cons row rest ih =>
    rw [List.foldl_cons, ih, JsMap.get_set, List.filter_cons]
    by_cases hkey : key row = one
    · simp only [hkey, decide_true, if_true, List.getLast?_cons]
      cases (rest.filter fun row ↦ key row = one).getLast? <;> rfl
    · simp [hkey, Ne.symm hkey]

/-- A key has one row. -/
theorem filter_eq_toList_find {key : Row → Key} {rows : List Row} (h : (rows.map key).Nodup)
    (one : Key) : rows.filter (fun row ↦ key row = one) =
      (rows.find? fun row ↦ key row = one).toList := by
  induction rows with
  | nil => rfl
  | cons row rest ih =>
    rw [List.map_cons, List.nodup_cons] at h
    rw [List.filter_cons, List.find?_cons]
    by_cases hkey : key row = one
    · have hrest : rest.filter (fun row ↦ key row = one) = [] := by
        rw [List.filter_eq_nil_iff]
        intro other hother hsame
        exact h.1 (List.mem_map.mpr ⟨other, hother, (of_decide_eq_true hsame).trans hkey.symm⟩)
      simp [hkey, hrest]
    · simp [hkey, ih h.2]

/-- The row of a key does not depend on the order of the rows. -/
theorem find_perm {key : Row → Key} {rows listed : List Row} (h : (rows.map key).Nodup)
    (hlisted : listed.Perm rows) (one : Key) :
    (listed.find? fun row ↦ key row = one) = rows.find? fun row ↦ key row = one := by
  have hperm := hlisted.filter fun row ↦ key row = one
  have hnodup : (listed.map key).Nodup := (hlisted.map key).nodup_iff.mpr h
  rw [filter_eq_toList_find h, filter_eq_toList_find hnodup] at hperm
  cases hfound : rows.find? fun row ↦ key row = one with
  | none =>
    rw [hfound] at hperm
    exact Option.toList_eq_nil_iff.mp hperm.eq_nil
  | some row =>
    rw [hfound] at hperm
    exact Option.toList_eq_singleton_iff.mp (List.perm_singleton.mp hperm)

/-- `ORDER BY`. -/
def orderBy (r : Row → Row → Prop) [DecidableRel r] (rows : List Row) : List Row :=
  rows.insertionSort r

/-- The first row of those with a property comes before all of them. -/
theorem first_of_orderBy {r : Row → Row → Prop} [DecidableRel r] [Std.Total r] [IsTrans Row r]
    {rows : List Row} {p : Row → Bool} {first : Row}
    (h : (orderBy r rows).find? p = some first) :
    first ∈ rows ∧ p first = true ∧ ∀ row ∈ rows, p row = true → row = first ∨ r first row := by
  obtain ⟨hfirst, before, after, hrows, hbefore⟩ := List.find?_eq_some_iff_append.mp h
  have hsorted : (orderBy r rows).Pairwise r := List.pairwise_insertionSort r rows
  refine ⟨(List.mem_insertionSort r).mp (List.mem_of_find?_eq_some h), hfirst, fun row hrow hp ↦ ?_⟩
  have hmem : row ∈ orderBy r rows := (List.mem_insertionSort r).mpr hrow
  rw [hrows] at hmem hsorted
  rcases List.mem_append.mp hmem with hmem | hmem
  · exact absurd hp (by simpa using hbefore row hmem)
  · rcases List.mem_cons.mp hmem with hsame | hmem
    · exact Or.inl hsame
    · have hafter := (List.pairwise_append.mp hsorted).2.1
      exact Or.inr (List.rel_of_pairwise_cons hafter hmem)

/-- The first row comes before all. -/
theorem head_of_orderBy {r : Row → Row → Prop} [DecidableRel r] [Std.Total r] [IsTrans Row r]
    {rows : List Row} {first : Row} (h : (orderBy r rows).head? = some first) :
    first ∈ rows ∧ ∀ row ∈ rows, row = first ∨ r first row := by
  have hfind : (orderBy r rows).find? (fun _ ↦ true) = some first := by
    rw [← h]
    cases orderBy r rows <;> rfl
  obtain ⟨hmem, -, hall⟩ := first_of_orderBy hfind
  exact ⟨hmem, fun row hrow ↦ hall row hrow rfl⟩

theorem head_orderBy_eq_none_iff {r : Row → Row → Prop} [DecidableRel r] {rows : List Row} :
    (orderBy r rows).head? = none ↔ rows = [] := by
  rw [List.head?_eq_none_iff, ← List.length_eq_zero_iff, ← List.length_eq_zero_iff]
  unfold orderBy
  rw [List.length_insertionSort]

theorem find_orderBy_eq_none_iff {r : Row → Row → Prop} [DecidableRel r] {rows : List Row}
    {p : Row → Bool} : (orderBy r rows).find? p = none ↔ ∀ row ∈ rows, p row ≠ true := by
  rw [List.find?_eq_none]
  unfold orderBy
  simp only [List.mem_insertionSort]

end Flockctl.Collections.Queries
