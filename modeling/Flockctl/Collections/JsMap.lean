import Mathlib.Data.List.Nodup

/-!
# Insertion-ordered maps

The `Map` of the source language: a finite list of entries with distinct keys, in the order in
which the keys were first set. Setting a present key keeps its place, deleting a key removes its
entry, and iteration runs over the entries in order. Distinctness of the keys is a field, so no
operation can produce a map with two entries for one key.
-/

namespace Flockctl.Collections

universe u v w

/-- A `Map` value: entries with distinct keys, oldest first. -/
structure JsMap (Key : Type u) (Value : Type v) where
  entries : List (Key × Value)
  nodup : (entries.map Prod.fst).Nodup

namespace JsMap

variable {Key : Type u} {Value : Type v}

/-- `new Map()`. -/
def empty : JsMap Key Value := ⟨[], List.nodup_nil⟩

/-- `map.size`. -/
def size (map : JsMap Key Value) : ℕ := map.entries.length

/-- `[...map.keys()]`. -/
def keys (map : JsMap Key Value) : List Key := map.entries.map Prod.fst

variable [DecidableEq Key]

/-- `map.get(key)`. -/
def get (map : JsMap Key Value) (key : Key) : Option Value := map.entries.lookup key

/-- `map.has(key)`. -/
def has (map : JsMap Key Value) (key : Key) : Bool := (map.get key).isSome

/-- Overwrite the value of a present key in place, or append a new entry. -/
def setEntries (key : Key) (value : Value) : List (Key × Value) → List (Key × Value)
  | [] => [(key, value)]
  | entry :: rest =>
      if entry.1 = key then (key, value) :: rest else entry :: setEntries key value rest

theorem keys_setEntries (key : Key) (value : Value) (entries : List (Key × Value)) :
    (setEntries key value entries).map Prod.fst =
      if key ∈ entries.map Prod.fst then entries.map Prod.fst
      else entries.map Prod.fst ++ [key] := by
  induction entries with
  | nil => simp [setEntries]
  | cons entry rest ih =>
    by_cases hkey : entry.1 = key
    · simp [setEntries, hkey]
    · have hkey' : key ≠ entry.1 := fun h ↦ hkey h.symm
      simp only [setEntries, if_neg hkey, List.map_cons, ih, List.mem_cons, hkey', false_or]
      split <;> rfl

/-- `map.set(key, value)`. -/
def set (map : JsMap Key Value) (key : Key) (value : Value) : JsMap Key Value where
  entries := setEntries key value map.entries
  nodup := by
    rw [keys_setEntries]
    split
    · exact map.nodup
    · rename_i hkey
      exact List.nodup_append.mpr ⟨map.nodup, List.nodup_singleton key, by
        intro other hother last hlast heq
        rw [List.mem_singleton.mp hlast] at heq
        exact hkey (heq ▸ hother)⟩

/-- Keep the entries whose key and value satisfy a test. -/
def filter (map : JsMap Key Value) (keep : Key → Value → Bool) : JsMap Key Value where
  entries := map.entries.filter fun entry ↦ keep entry.1 entry.2
  nodup := map.nodup.sublist (List.filter_sublist.map Prod.fst)

/-- `map.delete(key)`. -/
def delete (map : JsMap Key Value) (key : Key) : JsMap Key Value :=
  map.filter fun other _ ↦ decide (other ≠ key)

/-- `for (const key of keys) map.delete(key)`. -/
def deleteAll (map : JsMap Key Value) (keys : List Key) : JsMap Key Value :=
  map.filter fun other _ ↦ decide (other ∉ keys)

/-- Every value replaced by one computed from its key and itself, in place. -/
def mapWithKey (map : JsMap Key Value) (change : Key → Value → Value) : JsMap Key Value where
  entries := map.entries.map fun entry ↦ (entry.1, change entry.1 entry.2)
  nodup := by
    rw [List.map_map]
    exact map.nodup

/-- The map with the same keys and a value computed from each value. -/
def mapValues {Other : Type w} (map : JsMap Key Value) (change : Value → Other) :
    JsMap Key Other where
  entries := map.entries.map fun entry ↦ (entry.1, change entry.2)
  nodup := by
    rw [List.map_map]
    exact map.nodup

/-- The value of a present key replaced, in place. -/
def modify (map : JsMap Key Value) (key : Key) (change : Value → Value) : JsMap Key Value :=
  map.mapWithKey fun other value ↦ if other = key then change value else value

@[simp] theorem get_empty (key : Key) : (empty : JsMap Key Value).get key = none := rfl

theorem lookup_entry (entry : Key × Value) (rest : List (Key × Value)) (key : Key) :
    (entry :: rest).lookup key = if key = entry.1 then some entry.2 else rest.lookup key := by
  by_cases hkey : key = entry.1
  · rw [List.lookup_cons, if_pos hkey, hkey, beq_self_eq_true]
  · rw [List.lookup_cons, beq_false_of_ne hkey, if_neg hkey]

theorem lookup_setEntries (key : Key) (value : Value) (entries : List (Key × Value))
    (other : Key) :
    (setEntries key value entries).lookup other =
      if other = key then some value else entries.lookup other := by
  induction entries with
  | nil => simp [setEntries, lookup_entry]
  | cons entry rest ih =>
    obtain ⟨first, stored⟩ := entry
    by_cases hkey : first = key
    · subst hkey
      by_cases hother : other = first <;> simp [setEntries, lookup_entry, hother]
    · by_cases hfirst : other = first
      · subst hfirst
        simp [setEntries, lookup_entry, hkey]
      · simp [setEntries, lookup_entry, hkey, hfirst, ih]

variable (map : JsMap Key Value)

theorem get_set (key : Key) (value : Value) (other : Key) :
    (map.set key value).get other = if other = key then some value else map.get other :=
  lookup_setEntries key value map.entries other

@[simp] theorem get_set_self (key : Key) (value : Value) :
    (map.set key value).get key = some value := by
  rw [get_set, if_pos rfl]

theorem get_set_of_ne {key other : Key} (value : Value)
    (hother : other ≠ key) : (map.set key value).get other = map.get other := by
  rw [get_set, if_neg hother]

/-- An entry is found by its key, because no other entry has that key. -/
theorem mem_entries_iff (key : Key) (value : Value) :
    (key, value) ∈ map.entries ↔ map.get key = some value := by
  obtain ⟨entries, hnodup⟩ := map
  unfold get
  induction entries with
  | nil => simp
  | cons entry rest ih =>
    obtain ⟨first, stored⟩ := entry
    simp only [List.map_cons, List.nodup_cons] at hnodup
    by_cases hkey : key = first
    · subst hkey
      have habsent : (key, value) ∉ rest := fun hmem ↦
        hnodup.1 (List.mem_map.mpr ⟨(key, value), hmem, rfl⟩)
      simp [lookup_entry, habsent, eq_comm]
    · simp [lookup_entry, hkey, ih hnodup.2]

theorem mem_keys_iff (key : Key) :
    key ∈ map.keys ↔ ∃ value, map.get key = some value := by
  simp only [keys, List.mem_map, Prod.exists, exists_and_right, exists_eq_right,
    mem_entries_iff]

theorem get_filter (keep : Key → Value → Bool) (key : Key) :
    (map.filter keep).get key = (map.get key).filter (keep key) := by
  ext value
  rw [← mem_entries_iff, Option.filter_eq_some_iff, ← mem_entries_iff]
  exact List.mem_filter

theorem get_delete (key other : Key) :
    (map.delete key).get other = if other = key then none else map.get other := by
  rw [delete, get_filter]
  by_cases hother : other = key <;> cases map.get other <;> simp [Option.filter, hother]

@[simp] theorem get_delete_self (key : Key) :
    (map.delete key).get key = none := by
  rw [get_delete, if_pos rfl]

theorem get_delete_of_ne {key other : Key} (hother : other ≠ key) :
    (map.delete key).get other = map.get other := by
  rw [get_delete, if_neg hother]

theorem get_delete_eq_some_iff {map : JsMap Key Value} {key other : Key} {value : Value} :
    (map.delete key).get other = some value ↔ other ≠ key ∧ map.get other = some value := by
  rw [get_delete]
  by_cases hother : other = key <;> simp [hother]

theorem get_deleteAll (keys : List Key) (key : Key) :
    (map.deleteAll keys).get key = if key ∈ keys then none else map.get key := by
  rw [deleteAll, get_filter]
  by_cases hkey : key ∈ keys <;> cases map.get key <;> simp [Option.filter, hkey]

theorem lookup_map_change {Other : Type w} (change : Key → Value → Other)
    (entries : List (Key × Value)) (key : Key) :
    (entries.map fun entry ↦ (entry.1, change entry.1 entry.2)).lookup key =
      (entries.lookup key).map (change key) := by
  induction entries with
  | nil => rfl
  | cons entry rest ih =>
    rw [List.map_cons, lookup_entry, lookup_entry, ih]
    by_cases hkey : key = entry.1
    · simp [hkey]
    · simp [hkey]

theorem get_mapWithKey (change : Key → Value → Value) (key : Key) :
    (map.mapWithKey change).get key = (map.get key).map (change key) :=
  lookup_map_change change map.entries key

theorem get_modify (key : Key) (change : Value → Value) (other : Key) :
    (map.modify key change).get other =
      if other = key then (map.get key).map change else map.get other := by
  rw [modify, get_mapWithKey]
  by_cases hother : other = key
  · simp [hother]
  · simp [hother]

theorem has_eq_true_iff (key : Key) :
    map.has key = true ↔ ∃ value, map.get key = some value := Option.isSome_iff_exists

omit [DecidableEq Key] in
/-- The entries are all that a map has. -/
theorem ext_entries {map other : JsMap Key Value} (h : map.entries = other.entries) :
    map = other := by
  obtain ⟨entries, hnodup⟩ := map
  cases h
  rfl

theorem filter_eq_self {map : JsMap Key Value} {keep : Key → Value → Bool}
    (h : ∀ key value, map.get key = some value → keep key value = true) :
    map.filter keep = map := by
  apply ext_entries
  apply List.filter_eq_self.mpr
  intro entry hentry
  exact h entry.1 entry.2 ((map.mem_entries_iff entry.1 entry.2).mp hentry)

theorem delete_eq_self {map : JsMap Key Value} {key : Key} (h : map.get key = none) :
    map.delete key = map := by
  apply filter_eq_self
  intro other value hvalue
  refine decide_eq_true ?_
  rintro rfl
  cases h.symm.trans hvalue

theorem mapWithKey_eq_self {map : JsMap Key Value} {change : Key → Value → Value}
    (h : ∀ key value, map.get key = some value → change key value = value) :
    map.mapWithKey change = map := by
  apply ext_entries
  calc
    map.entries.map (fun entry ↦ (entry.1, change entry.1 entry.2)) = map.entries.map id := by
      apply List.map_congr_left
      intro entry hentry
      exact Prod.ext rfl (h entry.1 entry.2 ((map.mem_entries_iff entry.1 entry.2).mp hentry))
    _ = map.entries := List.map_id map.entries

theorem modify_eq_self {map : JsMap Key Value} {key : Key} {change : Value → Value}
    (h : ∀ value, map.get key = some value → change value = value) :
    map.modify key change = map := by
  apply mapWithKey_eq_self
  intro other value hvalue
  split
  · rename_i hsame
    exact h value (hsame ▸ hvalue)
  · rfl

/-- Setting a key anew forgets what it was set to. -/
theorem set_set (key : Key) (value other : Value) :
    (map.set key value).set key other = map.set key other := by
  apply ext_entries
  have hlists : ∀ entries : List (Key × Value),
      setEntries key other (setEntries key value entries) = setEntries key other entries := by
    intro entries
    induction entries with
    | nil => simp [setEntries]
    | cons entry rest ih =>
      by_cases hkey : entry.1 = key
      · simp [setEntries, hkey]
      · simp [setEntries, hkey, ih]
  exact hlists map.entries

theorem set_eq_self {map : JsMap Key Value} {key : Key} {value : Value}
    (h : map.get key = some value) : map.set key value = map := by
  apply ext_entries
  have hlists : ∀ entries : List (Key × Value), entries.lookup key = some value →
      setEntries key value entries = entries := by
    intro entries hlookup
    induction entries with
    | nil => cases hlookup
    | cons entry rest ih =>
      rw [lookup_entry] at hlookup
      by_cases hkey : key = entry.1
      · rw [if_pos hkey] at hlookup
        rw [setEntries, if_pos hkey.symm, hkey, ← Option.some.inj hlookup]
      · rw [if_neg hkey] at hlookup
        rw [setEntries, if_neg (Ne.symm hkey), ih hlookup]
  exact hlists map.entries h

/-- Deleting a key that has just been added leaves the map as it was before. -/
theorem delete_set {map : JsMap Key Value} {key : Key} (h : map.get key = none) (value : Value) :
    (map.set key value).delete key = map := by
  apply ext_entries
  have hmissing : ∀ entry ∈ map.entries, entry.1 ≠ key := by
    rintro ⟨other, stored⟩ hentry rfl
    cases h.symm.trans ((map.mem_entries_iff other stored).mp hentry)
  have hset : ∀ entries : List (Key × Value), (∀ entry ∈ entries, entry.1 ≠ key) →
      setEntries key value entries = entries ++ [(key, value)] := by
    intro entries hentries
    induction entries with
    | nil => rfl
    | cons entry rest ih =>
      rw [setEntries, if_neg (hentries entry List.mem_cons_self),
        ih fun other hother ↦ hentries other (List.mem_cons_of_mem entry hother), List.cons_append]
  have hkept : map.entries.filter (fun entry ↦ decide (entry.1 ≠ key)) = map.entries :=
    List.filter_eq_self.mpr fun entry hentry ↦ decide_eq_true (hmissing entry hentry)
  calc (setEntries key value map.entries).filter (fun entry ↦ decide (entry.1 ≠ key))
      = map.entries.filter (fun entry ↦ decide (entry.1 ≠ key)) := by
        rw [hset map.entries hmissing, List.filter_append]
        simp
    _ = map.entries := hkept

omit [DecidableEq Key] in
theorem mapWithKey_mapWithKey (map : JsMap Key Value) (change other : Key → Value → Value) :
    (map.mapWithKey change).mapWithKey other =
      map.mapWithKey fun key value ↦ other key (change key value) := by
  apply ext_entries
  simp [mapWithKey, Function.comp_def]

theorem deleteAll_cons (key : Key) (keys : List Key) :
    map.deleteAll (key :: keys) = (map.delete key).deleteAll keys := by
  apply ext_entries
  simp [deleteAll, delete, filter, List.filter_filter, Bool.and_comm]

theorem size_set (key : Key) (value : Value) :
    (map.set key value).size = if (map.get key).isSome then map.size else map.size + 1 := by
  have hkeys : (map.set key value).keys.length =
      if key ∈ map.keys then map.keys.length else (map.keys ++ [key]).length := by
    rw [keys, set, keys_setEntries, apply_ite List.length]
    rfl
  have hmem : key ∈ map.keys ↔ (map.get key).isSome = true := by
    rw [mem_keys_iff, Option.isSome_iff_exists]
  simp only [keys, List.length_map, List.length_append, List.length_singleton] at hkeys
  rw [size, hkeys]
  simp only [← hmem]
  rfl

theorem size_delete_le (key : Key) :
    (map.delete key).size ≤ map.size := List.length_filter_le _ _

theorem size_delete_lt {key : Key} {value : Value}
    (hvalue : map.get key = some value) : (map.delete key).size < map.size := by
  apply List.length_filter_lt_length_iff_exists.mpr
  exact ⟨(key, value), (map.mem_entries_iff key value).mpr hvalue, by simp⟩

/-- A map without entries is one in which every lookup misses. -/
theorem entries_eq_nil_iff :
    map.entries = [] ↔ ∀ key, map.get key = none := by
  constructor
  · intro hnil key
    rw [get, hnil]
    rfl
  · intro hnone
    apply List.eq_nil_iff_forall_not_mem.mpr
    rintro ⟨key, value⟩ hmem
    rw [mem_entries_iff, hnone key] at hmem
    cases hmem

end JsMap

end Flockctl.Collections
