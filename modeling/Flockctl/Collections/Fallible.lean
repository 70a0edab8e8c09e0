import Mathlib.Data.List.ReduceOption

/-!
# Mapping a function that may throw

`list.map(f)` throws as soon as `f` throws on an element, so it yields a list only where `f`
returns on every element, and the list then holds the results. A caller that catches the error and
goes on sees an empty list instead.
-/

namespace Flockctl.Collections

universe u v w

variable {Error : Type u} {Value Result : Type v}

/-- A computation that returns has returned at each of its steps. -/
theorem bind_eq_ok_iff {Value Result : Type v} {first : Except Error Value}
    {next : Value → Except Error Result} {result : Result} :
    (first >>= next) = .ok result ↔ ∃ value, first = .ok value ∧ next value = .ok result := by
  cases first with
  | error e => simp [bind, Except.bind]
  | ok value => simp [bind, Except.bind]

/-- `try { … } catch { continue; }` around a listing: an error stands for no entries. -/
def entriesOrNone (listing : Except Error (List Value)) : List Value :=
  match listing with
  | .ok entries => entries
  | .error _ => []

section

variable {f : Value → Except Error Result}

/-- A mapping that does not throw has thrown nowhere. -/
theorem mapM_ok_iff (values : List Value) :
    (∃ results, values.mapM f = .ok results) ↔ ∀ value ∈ values, ∃ result, f value = .ok result := by
  induction values with
  | nil => simp [pure, Except.pure]
  | cons value values ih =>
    rw [List.forall_mem_cons, ← ih, List.mapM_cons]
    cases hvalue : f value with
    | error e => simp [bind, Except.bind]
    | ok result =>
      cases hrest : values.mapM f <;> simp [bind, Except.bind, pure, Except.pure]

/-- It holds the results of the elements. -/
theorem mem_of_mapM_ok {values : List Value} {results : List Result}
    (h : values.mapM f = .ok results) (result : Result) :
    result ∈ results ↔ ∃ value ∈ values, f value = .ok result := by
  induction values generalizing results with
  | nil =>
    cases h
    simp
  | cons value values ih =>
    rw [List.mapM_cons] at h
    cases hvalue : f value with
    | error e => simp [hvalue, bind, Except.bind] at h
    | ok first =>
      cases hrest : values.mapM f with
      | error e => simp [hvalue, hrest, bind, Except.bind] at h
      | ok rest =>
        have hresults : first :: rest = results := by
          simpa [hvalue, hrest, bind, Except.bind, pure, Except.pure] using h
        calc result ∈ results
            ↔ result = first ∨ result ∈ rest := by rw [← hresults, List.mem_cons]
          _ ↔ .ok result = f value ∨ ∃ other ∈ values, f other = .ok result := by
              rw [hvalue, Except.ok.injEq, ih hrest]
          _ ↔ ∃ other ∈ value :: values, f other = .ok result := by
              rw [eq_comm, List.exists_mem_cons_iff]

end

/-- `list.map(f).filter(Boolean)` that does not throw holds the entries `f` finds. -/
theorem mem_reduceOption_of_mapM_ok {f : Value → Except Error (Option Result)}
    {values : List Value} {results : List Result}
    (h : (values.mapM f).map List.reduceOption = .ok results) (result : Result) :
    result ∈ results ↔ ∃ value ∈ values, f value = .ok (some result) := by
  cases hentries : values.mapM f with
  | error e => simp [hentries, Except.map] at h
  | ok entries =>
    rw [hentries] at h
    cases h
    rw [List.reduceOption_mem_iff, mem_of_mapM_ok hentries]

/-- The entries a mapping finds are named in the order of the values, some of which may yield
none. -/
theorem keys_sublist_of_mapM {Key : Type w} {f : Value → Except Error (Option Result)}
    {key : Result → Key} {name : Value → Key}
    (hkey : ∀ value result, f value = .ok (some result) → key result = name value)
    {values : List Value} {results : List Result}
    (h : (values.mapM f).map List.reduceOption = .ok results) :
    (results.map key).Sublist (values.map name) := by
  induction values generalizing results with
  | nil =>
    cases h
    exact List.Sublist.slnil
  | cons value values ih =>
    rw [List.mapM_cons] at h
    cases hvalue : f value with
    | error e => simp [hvalue, bind, Except.bind, Except.map] at h
    | ok first =>
      cases hrest : values.mapM f with
      | error e => simp [hvalue, hrest, bind, Except.bind, Except.map] at h
      | ok rest =>
        have hsublist : (rest.reduceOption.map key).Sublist (values.map name) :=
          ih (by rw [hrest]; rfl)
        have hresults : (first :: rest).reduceOption = results := by
          simpa [hvalue, hrest, bind, Except.bind, pure, Except.pure, Except.map] using h
        rw [← hresults]
        cases first with
        | none => exact hsublist.cons _
        | some result =>
          rw [List.reduceOption_cons_of_some, List.map_cons, List.map_cons, hkey value result hvalue]
          exact hsublist.cons_cons _

/-- `list.map(f).filter(Boolean)` behind a `catch`: the entries `f` finds, and none at all when it
throws anywhere. -/
theorem mem_entriesOrNone_mapM_iff {f : Value → Except Error (Option Result)}
    (values : List Value) (result : Result) :
    result ∈ entriesOrNone ((values.mapM f).map List.reduceOption) ↔
      (∀ value ∈ values, ∃ found, f value = .ok found) ∧
        ∃ value ∈ values, f value = .ok (some result) := by
  rw [← mapM_ok_iff]
  cases hresults : values.mapM f with
  | error e => simp [entriesOrNone, Except.map]
  | ok results =>
    calc result ∈ entriesOrNone (Except.map List.reduceOption (.ok results))
        ↔ some result ∈ results := List.reduceOption_mem_iff
      _ ↔ ∃ value ∈ values, f value = .ok (some result) := mem_of_mapM_ok hresults _
      _ ↔ _ := by simp

end Flockctl.Collections
