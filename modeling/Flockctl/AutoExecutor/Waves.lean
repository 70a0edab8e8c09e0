import Flockctl.Collections.JsMap
import Flockctl.Graph.Chains

/-!
# Execution waves

`computeWaves` sorts the items of a level (the slices of a milestone, the plan tasks of a slice)
into waves: the items that depend only on items of earlier waves, and all that remain once there
are none of these, so that a cycle cannot stop it. Where the dependencies are acyclic and name
items of the level, the second case never arises, and the waves are layers of the graph that hold
every item.
-/

namespace Flockctl.AutoExecutor

open Collections Flockctl.Graph

universe u

/-- `DependencyItem`; the status no wave depends on is left out. -/
structure DependencyItem (ID : Type u) where
  id : ID
  depends : List ID
  deriving DecidableEq, Repr

structure Wave (ID : Type u) where
  wave : ℕ
  ids : List ID
  deriving DecidableEq, Repr

section

variable {ID : Type u} [DecidableEq ID]

/-- `new Map(items.map(i => [i.id, i.depends]))`. -/
def dependencyMap (items : List (DependencyItem ID)) : JsMap ID (List ID) :=
  items.foldl (fun map item ↦ map.set item.id item.depends) JsMap.empty

/-- The remaining ids whose dependencies are completed. -/
def readyIds (remaining : JsMap ID (List ID)) (completed : List ID) : List ID :=
  (remaining.entries.filter fun entry ↦ entry.2.all (completed.contains ·)).map Prod.fst

/-- The ids of the next wave: the ready ones, or all of them on a circular dependency. -/
def nextIds (remaining : JsMap ID (List ID)) (completed : List ID) : List ID :=
  if (readyIds remaining completed).isEmpty then remaining.keys else readyIds remaining completed

/-- `while (remaining.size > 0)`. -/
def wavesLoop : ℕ → ℕ → JsMap ID (List ID) → List ID → List (Wave ID)
  | 0, _, _, _ => []
  | fuel + 1, wave, remaining, completed =>
    if remaining.size = 0 then []
    else
      ⟨wave, nextIds remaining completed⟩ ::
        wavesLoop fuel (wave + 1) (remaining.deleteAll (nextIds remaining completed))
          (completed ++ nextIds remaining completed)

/-- Each round removes an item, so the number of items is fuel enough. -/
def computeWaves (items : List (DependencyItem ID)) : List (Wave ID) :=
  wavesLoop (dependencyMap items).size 0 (dependencyMap items) []

theorem mem_readyIds_iff (remaining : JsMap ID (List ID)) (completed : List ID) (id : ID) :
    id ∈ readyIds remaining completed ↔
      ∃ depends, remaining.get id = some depends ∧ ∀ other ∈ depends, other ∈ completed := by
  simp [readyIds, JsMap.mem_entries_iff]

theorem nextIds_subset_keys (remaining : JsMap ID (List ID)) (completed : List ID) :
    nextIds remaining completed ⊆ remaining.keys := by
  intro id hid
  unfold nextIds at hid
  split at hid
  · exact hid
  · obtain ⟨depends, hget, _⟩ := (mem_readyIds_iff remaining completed id).mp hid
    exact (remaining.mem_keys_iff id).mpr ⟨depends, hget⟩

omit [DecidableEq ID] in
theorem keys_ne_nil {remaining : JsMap ID (List ID)} (hsize : remaining.size ≠ 0) :
    remaining.keys ≠ [] := by
  intro hnil
  apply hsize
  rw [JsMap.size, ← List.length_map Prod.fst]
  exact List.length_eq_zero_iff.mpr hnil

theorem nextIds_ne_nil {remaining : JsMap ID (List ID)} (hsize : remaining.size ≠ 0)
    (completed : List ID) : nextIds remaining completed ≠ [] := by
  unfold nextIds
  split
  · exact keys_ne_nil hsize
  · rename_i hready
    exact fun hnil ↦ hready (List.isEmpty_iff.mpr hnil)

theorem mem_keys_deleteAll_iff (remaining : JsMap ID (List ID)) (ids : List ID) (id : ID) :
    id ∈ (remaining.deleteAll ids).keys ↔ id ∈ remaining.keys ∧ id ∉ ids := by
  rw [JsMap.mem_keys_iff, JsMap.mem_keys_iff, JsMap.get_deleteAll]
  by_cases hid : id ∈ ids <;> simp [hid]

theorem size_deleteAll_lt {remaining : JsMap ID (List ID)} {ids : List ID} (hids : ids ≠ [])
    (hsubset : ids ⊆ remaining.keys) : (remaining.deleteAll ids).size < remaining.size := by
  obtain ⟨id, hid⟩ := List.exists_mem_of_ne_nil ids hids
  obtain ⟨depends, hget⟩ := (remaining.mem_keys_iff id).mp (hsubset hid)
  apply List.length_filter_lt_length_iff_exists.mpr
  exact ⟨(id, depends), (remaining.mem_entries_iff id depends).mpr hget, by simpa using hid⟩

theorem mem_wavesLoop_iff {fuel : ℕ} {remaining : JsMap ID (List ID)}
    (hfuel : remaining.size ≤ fuel) (wave : ℕ) (completed : List ID) (id : ID) :
    id ∈ ((wavesLoop fuel wave remaining completed).map (·.ids)).flatten ↔
      id ∈ remaining.keys := by
  induction fuel generalizing wave remaining completed with
  | zero =>
    have hnil : remaining.entries = [] := List.length_eq_zero_iff.mp (Nat.le_zero.mp hfuel)
    simp [wavesLoop, JsMap.keys, hnil]
  | succ fuel ih =>
    unfold wavesLoop
    split
    · rename_i hsize
      have hnil : remaining.entries = [] := List.length_eq_zero_iff.mp hsize
      simp [JsMap.keys, hnil]
    · rename_i hsize
      have hsubset := nextIds_subset_keys remaining completed
      have hlt := size_deleteAll_lt (nextIds_ne_nil hsize completed) hsubset
      rw [List.map_cons, List.flatten_cons, List.mem_append,
        ih (by omega) (wave + 1) (completed ++ nextIds remaining completed),
        mem_keys_deleteAll_iff]
      by_cases hid : id ∈ nextIds remaining completed
      · simp [hid, hsubset hid]
      · simp [hid]

/-- Items of one level have distinct ids, so the map holds them all. -/
theorem get_dependencyMap_iff {items : List (DependencyItem ID)}
    (hdistinct : (items.map (·.id)).Nodup) (id : ID) (depends : List ID) :
    (dependencyMap items).get id = some depends ↔ ⟨id, depends⟩ ∈ items := by
  induction items using List.reverseRecOn with
  | nil => simp [dependencyMap]
  | append_singleton items item ih =>
    rw [List.map_append, List.nodup_append] at hdistinct
    obtain ⟨hitems, _, hfresh⟩ := hdistinct
    have hset : dependencyMap (items ++ [item]) =
        (dependencyMap items).set item.id item.depends := by
      rw [dependencyMap, List.foldl_append]
      rfl
    rw [hset, JsMap.get_set, List.mem_append, List.mem_singleton]
    by_cases hid : id = item.id
    · have habsent : (⟨id, depends⟩ : DependencyItem ID) ∉ items := by
        intro hmem
        exact hfresh id (List.mem_map.mpr ⟨_, hmem, rfl⟩) item.id (by simp) hid
      obtain ⟨itemId, itemDepends⟩ := item
      simp only at hid
      simp [hid, hid ▸ habsent, eq_comm]
    · have hother : (⟨id, depends⟩ : DependencyItem ID) ≠ item := fun h ↦ hid (h ▸ rfl)
      simp [hid, hother, ih hitems]

theorem mem_computeWaves_iff {items : List (DependencyItem ID)}
    (hdistinct : (items.map (·.id)).Nodup) (id : ID) :
    id ∈ ((computeWaves items).map (·.ids)).flatten ↔ id ∈ items.map (·.id) := by
  rw [computeWaves, mem_wavesLoop_iff le_rfl, JsMap.mem_keys_iff]
  simp only [get_dependencyMap_iff hdistinct, List.mem_map]
  constructor
  · rintro ⟨depends, hmem⟩
    exact ⟨_, hmem, rfl⟩
  · rintro ⟨item, hmem, rfl⟩
    exact ⟨item.depends, hmem⟩

/-- `item` names `other` among its dependencies. -/
def Needs (items : List (DependencyItem ID)) (id other : ID) : Prop :=
  ∃ item ∈ items, item.id = id ∧ other ∈ item.depends

theorem needs_iff_mem {items : List (DependencyItem ID)} (hdistinct : (items.map (·.id)).Nodup)
    {id : ID} {depends : List ID} (hmem : ⟨id, depends⟩ ∈ items) (other : ID) :
    Needs items id other ↔ other ∈ depends := by
  constructor
  · rintro ⟨item, hitem, hid, hother⟩
    have hsame : (⟨item.id, item.depends⟩ : DependencyItem ID) ∈ items := hitem
    rw [← get_dependencyMap_iff hdistinct] at hsame hmem
    rw [hid, hmem] at hsame
    rw [Option.some.inj hsame]
    exact hother
  · exact fun hother ↦ ⟨_, hmem, rfl, hother⟩

/-- The dependencies are acyclic and name existing siblings. -/
structure WellFormed (items : List (DependencyItem ID)) : Prop where
  acyclic : Acyclic (Needs items)
  closed : ∀ item ∈ items, ∀ other ∈ item.depends, other ∈ items.map (·.id)

omit [DecidableEq ID] in
/-- A ranking of the items under which every dependency is a lower sibling. -/
theorem wellFormed_of_rank {items : List (DependencyItem ID)} (rank : ID → ℕ)
    (hrank : ∀ item ∈ items, ∀ other ∈ item.depends,
      rank other < rank item.id ∧ other ∈ items.map (·.id)) : WellFormed items where
  acyclic := by
    apply acyclic_of_rank rank
    rintro _ other ⟨item, hitem, rfl, hother⟩
    exact (hrank item hitem other hother).1
  closed item hitem other hother := (hrank item hitem other hother).2

/-- The state of the loop over a graph: what remains carries its edges, they lead to ids that
remain or are completed, and nothing is both. -/
structure Pending (needs : ID → ID → Prop) (remaining : JsMap ID (List ID))
    (completed : List ID) : Prop where
  edges : ∀ id depends, remaining.get id = some depends →
    ∀ other, needs id other ↔ other ∈ depends
  closed : ∀ id ∈ remaining.keys, ∀ other, needs id other →
    other ∈ completed ∨ other ∈ remaining.keys
  disjoint : ∀ id ∈ completed, id ∉ remaining.keys

namespace Pending

variable {needs : ID → ID → Prop} {remaining : JsMap ID (List ID)} {completed : List ID}

theorem initial {items : List (DependencyItem ID)} (hdistinct : (items.map (·.id)).Nodup)
    (hitems : WellFormed items) : Pending (Needs items) (dependencyMap items) [] where
  edges id depends hget :=
    needs_iff_mem hdistinct ((get_dependencyMap_iff hdistinct id depends).mp hget)
  closed id _ other hneeds := by
    obtain ⟨item, hitem, _, hother⟩ := hneeds
    obtain ⟨found, hfound, hid⟩ := List.mem_map.mp (hitems.closed item hitem other hother)
    apply Or.inr
    apply ((dependencyMap items).mem_keys_iff other).mpr
    exact ⟨found.depends, (get_dependencyMap_iff hdistinct _ _).mpr (hid ▸ hfound)⟩
  disjoint id hid := by cases hid

/-- The next wave of an acyclic graph needs completed ids only. -/
theorem needs_completed (h : Pending needs remaining completed) (hacyclic : Acyclic needs)
    (hsize : remaining.size ≠ 0) {id other : ID} (hid : id ∈ nextIds remaining completed)
    (hneeds : needs id other) : other ∈ completed := by
  have hready : readyIds remaining completed ≠ [] := by
    obtain ⟨least, hleast, hminimal⟩ := hacyclic.exists_minimal (keys_ne_nil hsize)
    obtain ⟨depends, hget⟩ := (remaining.mem_keys_iff least).mp hleast
    have hmem : least ∈ readyIds remaining completed := by
      apply (mem_readyIds_iff remaining completed least).mpr
      refine ⟨depends, hget, ?_⟩
      intro other hother
      have hedge : needs least other := (h.edges least depends hget other).mpr hother
      rcases h.closed least hleast other hedge with hcompleted | hremaining
      · exact hcompleted
      · exact absurd hedge (hminimal other hremaining)
    exact List.ne_nil_of_mem hmem
  rw [nextIds, if_neg (by simpa using hready)] at hid
  obtain ⟨depends, hget, hall⟩ := (mem_readyIds_iff remaining completed id).mp hid
  exact hall other ((h.edges id depends hget other).mp hneeds)

/-- Taking the next wave keeps the state of the loop. -/
theorem take (h : Pending needs remaining completed) :
    Pending needs (remaining.deleteAll (nextIds remaining completed))
      (completed ++ nextIds remaining completed) where
  edges id depends hget := by
    rw [JsMap.get_deleteAll] at hget
    split at hget
    · cases hget
    · exact h.edges id depends hget
  closed id hid other hneeds := by
    rw [mem_keys_deleteAll_iff] at hid ⊢
    rw [List.mem_append]
    rcases h.closed id hid.1 other hneeds with hcompleted | hremaining
    · exact Or.inl (Or.inl hcompleted)
    · by_cases hnext : other ∈ nextIds remaining completed
      · exact Or.inl (Or.inr hnext)
      · exact Or.inr ⟨hremaining, hnext⟩
  disjoint id hid hkeys := by
    rw [mem_keys_deleteAll_iff] at hkeys
    rcases List.mem_append.mp hid with hcompleted | hnext
    · exact h.disjoint id hcompleted hkeys.1
    · exact hkeys.2 hnext

theorem layered (h : Pending needs remaining completed) (hacyclic : Acyclic needs) {fuel : ℕ}
    (hfuel : remaining.size ≤ fuel) (wave : ℕ) :
    Layered needs ((wavesLoop fuel wave remaining completed).map (·.ids)) := by
  induction fuel generalizing wave remaining completed with
  | zero => exact layered_nil
  | succ fuel ih =>
    have hmem := mem_wavesLoop_iff hfuel wave completed
    unfold wavesLoop at hmem ⊢
    split at hmem
    · rename_i hsize
      rw [if_pos hsize]
      exact layered_nil
    · rename_i hsize
      have hlt := size_deleteAll_lt (nextIds_ne_nil hsize completed)
        (nextIds_subset_keys remaining completed)
      rw [if_neg hsize]
      apply Layered.cons (ih h.take (by omega) (wave + 1))
      · intro id hid other hneeds
        exact h.needs_completed hacyclic hsize hid hneeds
      · intro id hid hcompleted
        exact h.disjoint id hcompleted ((hmem id).mp hid)

end Pending

/-- The waves of acyclic and closed dependencies are layers of the graph. -/
theorem computeWaves_layered {items : List (DependencyItem ID)}
    (hdistinct : (items.map (·.id)).Nodup) (hitems : WellFormed items) :
    Layered (Needs items) ((computeWaves items).map (·.ids)) :=
  (Pending.initial hdistinct hitems).layered hitems.acyclic le_rfl 0

end

end Flockctl.AutoExecutor
