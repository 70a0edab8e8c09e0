import Flockctl.AutoExecutor.Waves
import Mathlib.Data.List.Pairwise

/-!
# The wave of an item

The loop of `computeWaves` ends, its waves are numbered from 0 on, and every item has its place in
one of them. Before the loop forces a wave, the completed ids are those that the rounds so far are
enough for. A forced wave is the last one, and it takes exactly the items from which a chain of
dependencies leads to an unknown id or into a cycle.
-/

namespace Flockctl.AutoExecutor

open Collections Flockctl.Graph

universe u

section

variable {ID : Type u} [DecidableEq ID]

/-! ## The loop ends -/

/-- `while (remaining.size > 0)` with no bound on its rounds: from this state it ends and adds
these waves. -/
inductive LoopEnds : ℕ → JsMap ID (List ID) → List ID → List (Wave ID) → Prop
  | exit {wave : ℕ} {remaining : JsMap ID (List ID)} {completed : List ID}
      (hsize : remaining.size = 0) : LoopEnds wave remaining completed []
  | round {wave : ℕ} {remaining : JsMap ID (List ID)} {completed : List ID}
      {waves : List (Wave ID)} (hsize : remaining.size ≠ 0)
      (hrest : LoopEnds (wave + 1) (remaining.deleteAll (nextIds remaining completed))
        (completed ++ nextIds remaining completed) waves) :
      LoopEnds wave remaining completed (⟨wave, nextIds remaining completed⟩ :: waves)

theorem loopEnds_wavesLoop {fuel : ℕ} {remaining : JsMap ID (List ID)}
    (hfuel : remaining.size ≤ fuel) (wave : ℕ) (completed : List ID) :
    LoopEnds wave remaining completed (wavesLoop fuel wave remaining completed) := by
  induction fuel generalizing wave remaining completed with
  | zero => exact LoopEnds.exit (Nat.le_zero.mp hfuel)
  | succ fuel ih =>
    unfold wavesLoop
    split
    · rename_i hsize
      exact LoopEnds.exit hsize
    · rename_i hsize
      have hlt := size_deleteAll_lt (nextIds_ne_nil hsize completed)
        (nextIds_subset_keys remaining completed)
      exact LoopEnds.round hsize (ih (by omega) (wave + 1) _)

theorem loopEnds_computeWaves (items : List (DependencyItem ID)) :
    LoopEnds 0 (dependencyMap items) [] (computeWaves items) :=
  loopEnds_wavesLoop le_rfl 0 []

namespace LoopEnds

variable {wave : ℕ} {remaining : JsMap ID (List ID)} {completed : List ID}
  {waves : List (Wave ID)}

theorem numbers (h : LoopEnds wave remaining completed waves) :
    waves.map (·.wave) = List.range' wave waves.length := by
  induction h with
  | exit hsize => rfl
  | round hsize hrest ih => simp [List.range'_succ, ih]

theorem subset_keys (h : LoopEnds wave remaining completed waves) :
    (waves.map (·.ids)).flatten ⊆ remaining.keys := by
  induction h with
  | exit hsize => simp
  | round hsize hrest ih =>
    intro id hid
    rw [List.map_cons, List.flatten_cons, List.mem_append] at hid
    rcases hid with hnext | hid
    · exact nextIds_subset_keys _ _ hnext
    · exact ((mem_keys_deleteAll_iff _ _ id).mp (ih hid)).1

theorem nodup_ids (h : LoopEnds wave remaining completed waves) :
    (waves.map (·.ids)).flatten.Nodup := by
  induction h with
  | exit hsize => simp
  | @round wave remaining completed waves hsize hrest ih =>
    rw [List.map_cons, List.flatten_cons, List.nodup_append]
    refine ⟨?_, ih, ?_⟩
    · unfold nextIds
      split
      · exact remaining.nodup
      · exact remaining.nodup.sublist (List.filter_sublist.map Prod.fst)
    · intro id hid other hother hsame
      exact ((mem_keys_deleteAll_iff _ _ other).mp (hrest.subset_keys hother)).2 (hsame ▸ hid)

end LoopEnds

/-- Every id occurs in exactly one wave, and once in it. -/
theorem perm_computeWaves {items : List (DependencyItem ID)}
    (hdistinct : (items.map (·.id)).Nodup) :
    ((computeWaves items).map (·.ids)).flatten.Perm (items.map (·.id)) := by
  rw [List.perm_ext_iff_of_nodup (loopEnds_computeWaves items).nodup_ids hdistinct]
  exact mem_computeWaves_iff hdistinct

theorem numbers_computeWaves (items : List (DependencyItem ID)) :
    (computeWaves items).map (·.wave) = List.range (computeWaves items).length := by
  rw [(loopEnds_computeWaves items).numbers, List.range_eq_range']

/-- Two waves that share an id are one. -/
theorem wave_eq_of_mem {items : List (DependencyItem ID)} {first second : Wave ID}
    (hfirst : first ∈ computeWaves items) (hsecond : second ∈ computeWaves items) {id : ID}
    (hid : id ∈ first.ids) (hid' : id ∈ second.ids) : first = second := by
  have hdisjoint := (List.nodup_flatten.mp (loopEnds_computeWaves items).nodup_ids).2
  rw [List.pairwise_map] at hdisjoint
  by_contra hne
  have hsymm : Std.Symm fun (one other : Wave ID) ↦ one.ids.Disjoint other.ids :=
    ⟨fun _ _ h ↦ h.symm⟩
  exact hdisjoint.forall hfirst hsecond hne hid hid'

/-! ## What a round takes -/

/-- The rounds of the loop are enough to complete the item. -/
abbrev CompletedWithin (items : List (DependencyItem ID)) : ℕ → ID → Prop :=
  TakenWithin (Needs items) (· ∈ items.map (·.id))

/-- What depends on nothing but items that are completed in their turn. -/
abbrev Orderable (items : List (DependencyItem ID)) : ID → Prop :=
  Grounded (Needs items) (· ∈ items.map (·.id))

omit [DecidableEq ID] in
theorem exists_completedWithin_iff (items : List (DependencyItem ID)) (id : ID) :
    (∃ rounds, CompletedWithin items rounds id) ↔ Orderable items id :=
  exists_takenWithin_iff (items.map (·.id)) (fun _ hlisted ↦ hlisted) id

/-- A wave of the ids that became ready. -/
def Wave.Ready (items : List (DependencyItem ID)) (wave : Wave ID) : Prop :=
  ∀ id, id ∈ wave.ids ↔
    CompletedWithin items (wave.wave + 1) id ∧ ¬CompletedWithin items wave.wave id

/-- A wave of all that remained when nothing was ready any more. -/
structure Wave.Forced (items : List (DependencyItem ID)) (wave : Wave ID) : Prop where
  mem_iff : ∀ id, id ∈ wave.ids ↔ id ∈ items.map (·.id) ∧ ¬Orderable items id
  last : ∀ rounds id, CompletedWithin items rounds id → CompletedWithin items wave.wave id

/-- The state of the loop after some rounds none of which was forced. -/
structure AfterRounds (items : List (DependencyItem ID)) (rounds : ℕ)
    (remaining : JsMap ID (List ID)) (completed : List ID) : Prop where
  mem_completed_iff : ∀ id, id ∈ completed ↔ CompletedWithin items rounds id
  get_eq_some_iff : ∀ id depends, remaining.get id = some depends ↔
    ⟨id, depends⟩ ∈ items ∧ ¬CompletedWithin items rounds id

theorem afterRounds_zero {items : List (DependencyItem ID)}
    (hdistinct : (items.map (·.id)).Nodup) : AfterRounds items 0 (dependencyMap items) [] where
  mem_completed_iff id := by simp [TakenWithin]
  get_eq_some_iff id depends := by
    simp [TakenWithin, get_dependencyMap_iff hdistinct]

namespace AfterRounds

variable {items : List (DependencyItem ID)} {rounds : ℕ} {remaining : JsMap ID (List ID)}
  {completed : List ID}

theorem mem_keys_iff (h : AfterRounds items rounds remaining completed) (id : ID) :
    id ∈ remaining.keys ↔ id ∈ items.map (·.id) ∧ ¬CompletedWithin items rounds id := by
  rw [JsMap.mem_keys_iff]
  simp only [h.get_eq_some_iff, List.mem_map]
  constructor
  · rintro ⟨depends, hitem, huncompleted⟩
    exact ⟨⟨_, hitem, rfl⟩, huncompleted⟩
  · rintro ⟨⟨item, hitem, rfl⟩, huncompleted⟩
    exact ⟨item.depends, hitem, huncompleted⟩

/-- Among the remaining items those are ready for which one more round is enough. -/
theorem mem_readyIds_iff (h : AfterRounds items rounds remaining completed)
    (hdistinct : (items.map (·.id)).Nodup) (id : ID) :
    id ∈ readyIds remaining completed ↔
      CompletedWithin items (rounds + 1) id ∧ ¬CompletedWithin items rounds id := by
  rw [AutoExecutor.mem_readyIds_iff]
  simp only [h.get_eq_some_iff, h.mem_completed_iff]
  constructor
  · rintro ⟨depends, ⟨hitem, huncompleted⟩, hall⟩
    refine ⟨⟨List.mem_map.mpr ⟨_, hitem, rfl⟩, ?_⟩, huncompleted⟩
    intro other hneeds
    exact hall other ((needs_iff_mem hdistinct hitem other).mp hneeds)
  · rintro ⟨hcompleted, huncompleted⟩
    obtain ⟨item, hitem, rfl⟩ := List.mem_map.mp hcompleted.isListed
    exact ⟨item.depends, ⟨hitem, huncompleted⟩, fun other hother ↦
      hcompleted.2 other ⟨item, hitem, rfl, hother⟩⟩

/-- A round that is not forced leads to the state after one more round. -/
theorem next (h : AfterRounds items rounds remaining completed)
    (hdistinct : (items.map (·.id)).Nodup) (hready : readyIds remaining completed ≠ []) :
    AfterRounds items (rounds + 1) (remaining.deleteAll (nextIds remaining completed))
      (completed ++ nextIds remaining completed) := by
  have hnext : nextIds remaining completed = readyIds remaining completed := by
    rw [nextIds, if_neg (by simpa using hready)]
  have hmem := h.mem_readyIds_iff hdistinct
  rw [hnext]
  constructor
  · intro id
    rw [List.mem_append, h.mem_completed_iff, hmem]
    constructor
    · rintro (hcompleted | hcompleted)
      · exact hcompleted.succ
      · exact hcompleted.1
    · intro hcompleted
      by_cases hbefore : CompletedWithin items rounds id
      · exact Or.inl hbefore
      · exact Or.inr ⟨hcompleted, hbefore⟩
  · intro id depends
    rw [JsMap.get_deleteAll]
    split
    · rename_i hid
      have hcompleted := ((hmem id).mp hid).1
      simp [hcompleted]
    · rename_i hid
      rw [h.get_eq_some_iff]
      rw [hmem] at hid
      constructor
      · rintro ⟨hitem, huncompleted⟩
        exact ⟨hitem, fun hcompleted ↦ hid ⟨hcompleted, huncompleted⟩⟩
      · rintro ⟨hitem, huncompleted⟩
        exact ⟨hitem, fun hcompleted ↦ huncompleted hcompleted.succ⟩

/-- When nothing is ready, no more rounds complete anything. -/
theorem forced (h : AfterRounds items rounds remaining completed)
    (hdistinct : (items.map (·.id)).Nodup) (hready : readyIds remaining completed = []) :
    Wave.Forced items ⟨rounds, nextIds remaining completed⟩ := by
  have hstable (id : ID) (hcompleted : CompletedWithin items (rounds + 1) id) :
      CompletedWithin items rounds id := by
    by_contra huncompleted
    have hmem := (h.mem_readyIds_iff hdistinct id).mpr ⟨hcompleted, huncompleted⟩
    rw [hready] at hmem
    cases hmem
  have hlast (more : ℕ) (id : ID) (hcompleted : CompletedWithin items more id) :
      CompletedWithin items rounds id := TakenWithin.of_stable hstable hcompleted
  constructor
  · intro id
    rw [nextIds, if_pos (by simp [hready]), h.mem_keys_iff, ← exists_completedWithin_iff]
    apply and_congr_right
    intro _
    exact not_congr ⟨fun hcompleted ↦ ⟨rounds, hcompleted⟩,
      fun hsome ↦ hsome.elim fun more hcompleted ↦ hlast more id hcompleted⟩
  · exact hlast

end AfterRounds

theorem LoopEnds.nil_of_forced {wave : ℕ} {remaining : JsMap ID (List ID)} {completed : List ID}
    {waves : List (Wave ID)}
    (h : LoopEnds wave (remaining.deleteAll remaining.keys) completed waves) : waves = [] := by
  cases h with
  | exit hsize => rfl
  | round hsize hrest =>
    apply absurd _ hsize
    have hnone (id : ID) : id ∉ (remaining.deleteAll remaining.keys).keys := by
      rw [mem_keys_deleteAll_iff]
      exact fun hid ↦ hid.2 hid.1
    by_contra hsize
    exact keys_ne_nil hsize (List.eq_nil_iff_forall_not_mem.mpr hnone)

/-- Every wave is one of the ids that became ready, or the forced one. -/
theorem LoopEnds.ready_or_forced {items : List (DependencyItem ID)}
    (hdistinct : (items.map (·.id)).Nodup) {rounds : ℕ} {remaining : JsMap ID (List ID)}
    {completed : List ID} {waves : List (Wave ID)}
    (h : LoopEnds rounds remaining completed waves)
    (hstate : AfterRounds items rounds remaining completed) :
    ∀ wave ∈ waves, wave.Ready items ∨ wave.Forced items := by
  induction h with
  | exit hsize => simp
  | @round rounds remaining completed waves hsize hrest ih =>
    intro wave hwave
    by_cases hready : readyIds remaining completed = []
    · have hnext : nextIds remaining completed = remaining.keys := by
        rw [nextIds, if_pos (by simp [hready])]
      rw [hnext] at hrest
      rw [hrest.nil_of_forced, List.mem_singleton] at hwave
      exact Or.inr (hwave ▸ hstate.forced hdistinct hready)
    · rcases List.mem_cons.mp hwave with rfl | hwave
      · apply Or.inl
        intro id
        rw [nextIds, if_neg (by simpa using hready)]
        exact hstate.mem_readyIds_iff hdistinct id
      · exact ih (hstate.next hdistinct hready) wave hwave

theorem computeWaves_ready_or_forced {items : List (DependencyItem ID)}
    (hdistinct : (items.map (·.id)).Nodup) {wave : Wave ID} (hwave : wave ∈ computeWaves items) :
    wave.Ready items ∨ wave.Forced items :=
  (loopEnds_computeWaves items).ready_or_forced hdistinct (afterRounds_zero hdistinct) wave hwave

theorem exists_wave {items : List (DependencyItem ID)} (hdistinct : (items.map (·.id)).Nodup)
    {id : ID} (hid : id ∈ items.map (·.id)) : ∃ wave ∈ computeWaves items, id ∈ wave.ids := by
  rw [← mem_computeWaves_iff hdistinct, List.mem_flatten] at hid
  obtain ⟨ids, hids, hmem⟩ := hid
  obtain ⟨wave, hwave, rfl⟩ := List.mem_map.mp hids
  exact ⟨wave, hwave, hmem⟩

namespace Wave

variable {items : List (DependencyItem ID)} {wave : Wave ID} {id : ID}

section

variable (hdistinct : (items.map (·.id)).Nodup) (hwave : wave ∈ computeWaves items)
  (hid : id ∈ wave.ids)

include hdistinct hwave hid

theorem forced_of_mem (hstuck : ¬Orderable items id) : wave.Forced items := by
  rcases computeWaves_ready_or_forced hdistinct hwave with hready | hforced
  · exact absurd ((hready id).mp hid).1.grounded hstuck
  · exact hforced

theorem uncompleted_of_orderable (horderable : Orderable items id) :
    ¬CompletedWithin items wave.wave id := by
  rcases computeWaves_ready_or_forced hdistinct hwave with hready | hforced
  · exact ((hready id).mp hid).2
  · exact absurd horderable ((hforced.mem_iff id).mp hid).2

/-- What an item of a wave depends on is completed before the wave, unless it never is. -/
theorem completed_of_needs {other : ID}
    (hneeds : Needs items id other) (horderable : Orderable items other) :
    CompletedWithin items wave.wave other := by
  rcases computeWaves_ready_or_forced hdistinct hwave with hready | hforced
  · exact ((hready id).mp hid).1.2 other hneeds
  · obtain ⟨rounds, hcompleted⟩ := (exists_completedWithin_iff items other).mpr horderable
    exact hforced.last rounds other hcompleted

end

end Wave

/-! ## Well-formed dependencies -/

omit [DecidableEq ID] in
theorem WellFormed.orderable {items : List (DependencyItem ID)} (hitems : WellFormed items) {id : ID}
    (hid : id ∈ items.map (·.id)) : Orderable items id := by
  intro reached hpath
  refine ⟨?_, hitems.acyclic reached⟩
  induction hpath with
  | refl => exact hid
  | tail _ hneeds _ =>
    obtain ⟨item, hitem, _, hother⟩ := hneeds
    exact hitems.closed item hitem _ hother

omit [DecidableEq ID] in
/-- Whoever places every item after its dependencies leaves room for the chains that end in it. -/
theorem chainEnds_le {items : List (DependencyItem ID)} {slot : ID → ℕ}
    (hslot : ∀ id other, Needs items id other → slot other < slot id) {length : ℕ} {id : ID}
    (hchain : ChainEnds (Needs items) length id) : length ≤ slot id := by
  induction length generalizing id with
  | zero => exact Nat.zero_le _
  | succ length ih =>
    obtain ⟨other, hneeds, hrest⟩ := hchain
    calc length + 1 ≤ slot other + 1 := Nat.succ_le_succ (ih hrest)
      _ ≤ slot id := hslot id other hneeds

/-- An item of well-formed dependencies is in the wave numbered by the longest chain ending in
it. -/
theorem isGreatest_wave {items : List (DependencyItem ID)} (hdistinct : (items.map (·.id)).Nodup)
    (hitems : WellFormed items) {wave : Wave ID} (hwave : wave ∈ computeWaves items) {id : ID}
    (hid : id ∈ wave.ids) :
    IsGreatest {length | ChainEnds (Needs items) length id} wave.wave := by
  rcases computeWaves_ready_or_forced hdistinct hwave with hready | hforced
  · have hclosed (node other : ID) (hneeds : Needs items node other) :
        other ∈ items.map (·.id) := by
      obtain ⟨item, hitem, _, hother⟩ := hneeds
      exact hitems.closed item hitem other hother
    obtain ⟨htaken, huntaken⟩ := (hready id).mp hid
    exact isGreatest_chainEnds hclosed htaken huntaken
  · obtain ⟨hlisted, hstuck⟩ := (hforced.mem_iff id).mp hid
    exact absurd (hitems.orderable hlisted) hstuck

/-- On well-formed dependencies the waves are the layering by longest chains: the loop ends, its
waves are numbered without a gap and hold every id once, an item's wave is the longest chain of
dependencies that ends in it, its dependencies are in earlier waves, and no order that respects
the dependencies places it earlier. -/
theorem computeWaves_longestPath {items : List (DependencyItem ID)}
    (hdistinct : (items.map (·.id)).Nodup) (hitems : WellFormed items) :
    LoopEnds 0 (dependencyMap items) [] (computeWaves items) ∧
      (computeWaves items).map (·.wave) = List.range (computeWaves items).length ∧
      ((computeWaves items).map (·.ids)).flatten.Perm (items.map (·.id)) ∧
      (∀ wave ∈ computeWaves items, ∀ id ∈ wave.ids,
        IsGreatest {length | ChainEnds (Needs items) length id} wave.wave) ∧
      (∀ early ∈ computeWaves items, ∀ late ∈ computeWaves items, ∀ other ∈ early.ids,
        ∀ id ∈ late.ids, Needs items id other → early.wave < late.wave) ∧
      ∀ slot : ID → ℕ, (∀ id other, Needs items id other → slot other < slot id) →
        ∀ wave ∈ computeWaves items, ∀ id ∈ wave.ids, wave.wave ≤ slot id := by
  have hgreatest (wave : Wave ID) (hwave : wave ∈ computeWaves items) (id : ID)
      (hid : id ∈ wave.ids) := isGreatest_wave hdistinct hitems hwave hid
  refine ⟨loopEnds_computeWaves items, numbers_computeWaves items, perm_computeWaves hdistinct,
    hgreatest, ?_, ?_⟩
  · intro early hearly late hlate other hother id hid hneeds
    have hchain : ChainEnds (Needs items) (early.wave + 1) id :=
      ⟨other, hneeds, (hgreatest early hearly other hother).1⟩
    exact (hgreatest late hlate id hid).2 hchain
  · intro slot hslot wave hwave id hid
    exact chainEnds_le hslot (hgreatest wave hwave id hid).1

/-- A diamond, listed in another order than its waves. -/
theorem computeWaves_longestPath_diamond :
    IsGreatest {length | ChainEnds
      (Needs [⟨"ship", ["api", "ui"]⟩, ⟨"api", ["schema"]⟩, ⟨"ui", ["schema"]⟩, ⟨"schema", []⟩])
      length "ship"} 2 := by
  let items : List (DependencyItem String) :=
    [⟨"ship", ["api", "ui"]⟩, ⟨"api", ["schema"]⟩, ⟨"ui", ["schema"]⟩, ⟨"schema", []⟩]
  let rank : String → ℕ := fun id ↦
    if id = "schema" then 0 else if id = "ship" then 2 else 1
  have hitems : WellFormed items := wellFormed_of_rank rank (by decide)
  have h := @computeWaves_longestPath String _ items (by decide) hitems
  exact h.2.2.2.1 ⟨2, ["ship"]⟩ (by decide +kernel) "ship" (by decide)

/-! ## Arbitrary dependencies -/

/-- The first id is in an earlier wave than the second. -/
def Earlier (waves : List (Wave ID)) (first second : ID) : Prop :=
  ∃ early ∈ waves, ∃ late ∈ waves,
    first ∈ early.ids ∧ second ∈ late.ids ∧ early.wave < late.wave

/-- With any dependencies the loop ends and every id is in exactly one wave; and a listed
dependency of an item is in an earlier wave than the item exactly when no chain leads from the
dependency to an unknown id or into a cycle. -/
theorem computeWaves_earlier_iff {items : List (DependencyItem ID)}
    (hdistinct : (items.map (·.id)).Nodup) :
    LoopEnds 0 (dependencyMap items) [] (computeWaves items) ∧
      ((computeWaves items).map (·.ids)).flatten.Perm (items.map (·.id)) ∧
      ∀ item ∈ items, ∀ other ∈ item.depends, other ∈ items.map (·.id) →
        (Earlier (computeWaves items) other item.id ↔ Orderable items other) := by
  refine ⟨loopEnds_computeWaves items, perm_computeWaves hdistinct, ?_⟩
  intro item hitem other hother hlisted
  have hneeds : Needs items item.id other := ⟨item, hitem, rfl, hother⟩
  constructor
  · intro ⟨early, hearly, late, hlate, hotherMem, hitemMem, hlt⟩
    by_contra hstuck
    have hitemStuck : ¬Orderable items item.id := fun hitem ↦ hstuck (hitem.of_needs hneeds)
    -- neither of the two is ever ready, so both are in the forced wave
    have hlateForced : late.Forced items := late.forced_of_mem hdistinct hlate hitemMem hitemStuck
    have hsame : early = late := by
      apply wave_eq_of_mem hearly hlate hotherMem
      exact (hlateForced.mem_iff other).mpr ⟨hlisted, hstuck⟩
    exact absurd hlt (hsame ▸ Nat.lt_irrefl _)
  · intro horderable
    obtain ⟨early, hearly, hotherMem⟩ := exists_wave hdistinct hlisted
    obtain ⟨late, hlate, hitemMem⟩ := exists_wave hdistinct (List.mem_map.mpr ⟨item, hitem, rfl⟩)
    refine ⟨early, hearly, late, hlate, hotherMem, hitemMem, ?_⟩
    have huncompleted := early.uncompleted_of_orderable hdistinct hearly hotherMem horderable
    have hcompleted : CompletedWithin items late.wave other :=
      late.completed_of_needs hdistinct hlate hitemMem hneeds horderable
    by_contra hle
    exact huncompleted (hcompleted.mono (Nat.le_of_not_lt hle))

/-- An item that waits for itself does not hold up one that nothing leads from it to. -/
theorem computeWaves_earlier_iff_loop :
    Earlier (computeWaves [⟨"retry", ["retry", "build"]⟩, ⟨"build", ["fetch"]⟩, ⟨"fetch", []⟩])
      "fetch" "build" ↔
    Orderable [⟨"retry", ["retry", "build"]⟩, ⟨"build", ["fetch"]⟩, ⟨"fetch", []⟩] "fetch" := by
  let items : List (DependencyItem String) :=
    [⟨"retry", ["retry", "build"]⟩, ⟨"build", ["fetch"]⟩, ⟨"fetch", []⟩]
  have h := @computeWaves_earlier_iff String _ items (by decide)
  exact h.2.2 ⟨"build", ["fetch"]⟩ (by decide) "fetch" (by decide) (by decide)

/-- An item behind a cycle is forced together with it, though it lies on no cycle itself. -/
theorem not_computeWaves_earlier :
    ¬∀ items : List (DependencyItem String), (items.map (·.id)).Nodup →
      ((computeWaves items).map (·.ids)).flatten.Perm (items.map (·.id)) ∧
        ∀ item ∈ items, ∀ other ∈ item.depends, other ∈ items.map (·.id) →
          ¬(Relation.TransGen (Needs items) other item.id ∧
            Relation.TransGen (Needs items) item.id other) →
          Earlier (computeWaves items) other item.id := by
  intro h
  let items : List (DependencyItem String) := [⟨"retry", ["retry"]⟩, ⟨"report", ["retry"]⟩]
  have hretry (other : String) (hpath : Relation.TransGen (Needs items) "retry" other) :
      other = "retry" := by
    have hedge (last : String) (hneeds : Needs items "retry" last) : last = "retry" := by
      obtain ⟨item, hitem, hid, hlast⟩ := hneeds
      have hdepends : item = ⟨"retry", ["retry"]⟩ ∨ item = ⟨"report", ["retry"]⟩ := by
        simpa [items] using hitem
      rcases hdepends with rfl | rfl
      · simpa using hlast
      · exact absurd hid (by decide)
    induction hpath with
    | single hneeds => exact hedge _ hneeds
    | tail _ hneeds ih => exact hedge _ (ih ▸ hneeds)
  have hnocycle : ¬(Relation.TransGen (Needs items) "retry" "report" ∧
      Relation.TransGen (Needs items) "report" "retry") :=
    fun hcycle ↦ absurd (hretry "report" hcycle.1) (by decide)
  obtain ⟨early, hearly, late, hlate, _, _, hlt⟩ :=
    (h items (by decide)).2 ⟨"report", ["retry"]⟩ (by decide) "retry" (by decide) (by decide)
      hnocycle
  have hwaves : computeWaves items = [⟨0, ["retry", "report"]⟩] := by decide +kernel
  rw [hwaves, List.mem_singleton] at hearly hlate
  rw [hearly, hlate] at hlt
  exact Nat.lt_irrefl _ hlt

/-! ## The order of the items -/

/-- The same ids in the same waves. -/
def SameWaves : List (Wave ID) → List (Wave ID) → Prop :=
  List.Forall₂ fun one other ↦ one.wave = other.wave ∧ one.ids.Perm other.ids

section

variable {remaining others : JsMap ID (List ID)} {completed done : List ID}
  (hget : ∀ id, remaining.get id = others.get id)

include hget

theorem keys_perm : remaining.keys.Perm others.keys := by
  rw [List.perm_ext_iff_of_nodup (show remaining.keys.Nodup from remaining.nodup)
    (show others.keys.Nodup from others.nodup)]
  intro id
  rw [JsMap.mem_keys_iff, JsMap.mem_keys_iff, hget]

theorem size_of_get : remaining.size = others.size := by
  simpa [JsMap.keys, JsMap.size] using (keys_perm hget).length_eq

theorem nextIds_perm (hcompleted : ∀ id, id ∈ completed ↔ id ∈ done) :
    (nextIds remaining completed).Perm (nextIds others done) := by
  have hnodup (map : JsMap ID (List ID)) (ids : List ID) : (readyIds map ids).Nodup :=
    map.nodup.sublist (List.filter_sublist.map _)
  have hready : (readyIds remaining completed).Perm (readyIds others done) := by
    rw [List.perm_ext_iff_of_nodup (hnodup _ _) (hnodup _ _)]
    intro id
    simp only [mem_readyIds_iff, hget, hcompleted]
  unfold nextIds
  rw [hready.isEmpty_eq]
  split
  · exact keys_perm hget
  · exact hready

theorem wavesLoop_same (hcompleted : ∀ id, id ∈ completed ↔ id ∈ done) (fuel wave : ℕ) :
    SameWaves (wavesLoop fuel wave remaining completed) (wavesLoop fuel wave others done) := by
  induction fuel generalizing wave remaining others completed done with
  | zero => exact List.Forall₂.nil
  | succ fuel ih =>
    have hnext := nextIds_perm hget hcompleted
    rw [wavesLoop, wavesLoop, size_of_get hget]
    split
    · exact List.Forall₂.nil
    · refine List.Forall₂.cons ⟨rfl, hnext⟩ (ih (fun id ↦ ?_) (fun id ↦ ?_) (wave + 1))
      · simp only [JsMap.get_deleteAll, hget, hnext.mem_iff]
      · rw [List.mem_append, List.mem_append, hcompleted, hnext.mem_iff]

end

/-- Whatever the dependencies, the waves do not depend on the order in which the items are listed. -/
theorem computeWaves_of_perm {items listed : List (DependencyItem ID)}
    (hdistinct : (items.map (·.id)).Nodup) (hlisted : listed.Perm items) :
    SameWaves (computeWaves items) (computeWaves listed) := by
  have hget (id : ID) : (dependencyMap items).get id = (dependencyMap listed).get id := by
    have hnodup : (listed.map (·.id)).Nodup := (hlisted.map _).nodup_iff.mpr hdistinct
    ext depends
    rw [get_dependencyMap_iff hdistinct, get_dependencyMap_iff hnodup, hlisted.mem_iff]
  rw [computeWaves, computeWaves, size_of_get hget]
  exact wavesLoop_same hget (fun _ ↦ Iff.rfl) _ 0

theorem computeWaves_of_perm_cycle :
    SameWaves (computeWaves [⟨"api", ["ui"]⟩, ⟨"ui", ["api"]⟩, ⟨"schema", []⟩])
      (computeWaves [⟨"schema", []⟩, ⟨"api", ["ui"]⟩, ⟨"ui", ["api"]⟩]) :=
  computeWaves_of_perm (by decide) (by decide)

end

end Flockctl.AutoExecutor
