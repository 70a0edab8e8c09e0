import Mathlib.Data.List.Nodup
import Mathlib.Data.List.Perm.Subperm

/-!
# Reading a listing of a graph page by page

A listing of what a node reaches has each node in front of the nodes that it reaches. Its first
page has a given number of nodes, and the node behind them is the start of the listing for the next
page. That listing has what the new start reaches only. So no node comes twice and the reading
ends, but what stood behind the new start without being reached from it is lost, and no later page
brings it back.
-/

namespace Flockctl.Graph

open Relation

universe u

variable {Node : Type u}

/-- The listing of each node has what the node reaches, and nothing in it reaches anything in front
of it. -/
structure TopologicalListing (step : Node → Node → Prop) (listing : Node → List Node) : Prop where
  mem_iff : ∀ start node, node ∈ listing start ↔ ReflTransGen step start node
  ordered : ∀ start,
    (listing start).Pairwise fun earlier later ↦ ¬ReflTransGen step later earlier

/-- The pages from a start on; `none` when the fuel does not last to the final page. -/
def pages (size : ℕ) (listing : Node → List Node) : ℕ → Node → Option (List (List Node))
  | 0, _ => none
  | fuel + 1, start =>
    match (listing start)[size]? with
    | none => some [listing start]
    | some next => (pages size listing fuel next).map ((listing start).take size :: ·)

/-- A page starts at the node when the pages are read from the start on. -/
def PageStart (size : ℕ) (listing : Node → List Node) : Node → Node → Prop :=
  ReflTransGen fun start next ↦ (listing start)[size]? = some next

/-- What stands behind the first node of a next page is reached from that node. -/
def CutsClean (step : Node → Node → Prop) (size : ℕ) (listing : Node → List Node) (start : Node) :
    Prop :=
  ∀ first next, PageStart size listing start first → (listing first)[size]? = some next →
    ∀ node ∈ (listing first).drop size, ReflTransGen step next node

variable {step : Node → Node → Prop} {size : ℕ} {listing : Node → List Node}

namespace TopologicalListing

variable (hlisting : TopologicalListing step listing)

include hlisting

theorem nodup (start : Node) : (listing start).Nodup := by
  apply (hlisting.ordered start).imp
  rintro earlier later hfree rfl
  exact hfree ReflTransGen.refl

/-- The first node of the next page reaches nothing of the page in front of it. -/
theorem not_reaches_of_mem_take {start next node : Node} (hnext : (listing start)[size]? = some next)
    (hnode : node ∈ (listing start).take size) : ¬ReflTransGen step next node := by
  have hordered := hlisting.ordered start
  rw [← List.take_append_drop size (listing start), List.pairwise_append] at hordered
  apply hordered.2.2 node hnode next
  rw [List.mem_iff_getElem?]
  exact ⟨0, by rw [List.getElem?_drop, Nat.add_zero, hnext]⟩

/-- The next listing is a part of the listing in front of it, behind the page. -/
theorem subset_drop {start next : Node} (hnext : (listing start)[size]? = some next) :
    listing next ⊆ (listing start).drop size := by
  intro node hnode
  have hreaches := (hlisting.mem_iff next node).mp hnode
  have hmem : node ∈ listing start := by
    rw [hlisting.mem_iff]
    exact ((hlisting.mem_iff start next).mp (List.mem_of_getElem? hnext)).trans hreaches
  rw [← List.take_append_drop size (listing start), List.mem_append] at hmem
  exact hmem.resolve_left fun hpage ↦ hlisting.not_reaches_of_mem_take hnext hpage hreaches

theorem length_next_lt (hsize : 0 < size) {start next : Node}
    (hnext : (listing start)[size]? = some next) :
    (listing next).length < (listing start).length := by
  have hle : (listing next).length ≤ ((listing start).drop size).length :=
    (List.subperm_of_subset (hlisting.nodup next) (hlisting.subset_drop hnext)).length_le
  have hbound := (List.getElem?_eq_some_iff.mp hnext).1
  rw [List.length_drop] at hle
  omega

/-- The reading ends. -/
theorem exists_pages (hsize : 0 < size) : ∀ (fuel : ℕ) (start : Node),
    (listing start).length < fuel → ∃ read, pages size listing fuel start = some read := by
  intro fuel
  induction fuel with
  | zero =>
    intro start hfuel
    exact absurd hfuel (Nat.not_lt_zero _)
  | succ fuel ih =>
    intro start hfuel
    cases hnext : (listing start)[size]? with
    | none => exact ⟨[listing start], by simp only [pages, hnext]⟩
    | some next =>
      have hlt := hlisting.length_next_lt hsize hnext
      obtain ⟨read, hread⟩ := ih next (by omega)
      exact ⟨(listing start).take size :: read, by simp only [pages, hnext, hread, Option.map_some]⟩

end TopologicalListing

/-- How a reading begins: it is the whole listing, or a full page and the reading of the rest. -/
theorem pages_cases {fuel : ℕ} {start : Node} {read : List (List Node)}
    (h : pages size listing (fuel + 1) start = some read) :
    ((listing start)[size]? = none ∧ read = [listing start]) ∨
      ∃ next rest, (listing start)[size]? = some next ∧
        pages size listing fuel next = some rest ∧ read = (listing start).take size :: rest := by
  rw [pages] at h
  split at h
  · rename_i hnext
    exact Or.inl ⟨hnext, (Option.some.inj h).symm⟩
  · rename_i next hnext
    obtain ⟨rest, hrest, rfl⟩ := Option.map_eq_some_iff.mp h
    exact Or.inr ⟨next, rest, hnext, hrest, rfl⟩

theorem ne_nil_of_pages {fuel : ℕ} {start : Node} {read : List (List Node)}
    (h : pages size listing fuel start = some read) : read ≠ [] := by
  cases fuel with
  | zero => cases h
  | succ fuel =>
    obtain ⟨-, rfl⟩ | ⟨next, rest, -, -, rfl⟩ := pages_cases h
    · exact List.cons_ne_nil _ _
    · exact List.cons_ne_nil _ _

/-- Every page but the last is full. -/
theorem length_of_mem_dropLast : ∀ (fuel : ℕ) {start : Node} {read : List (List Node)},
    pages size listing fuel start = some read → ∀ page ∈ read.dropLast, page.length = size := by
  intro fuel
  induction fuel with
  | zero =>
    intro start read h
    cases h
  | succ fuel ih =>
    intro start read h page hpage
    obtain ⟨-, rfl⟩ | ⟨next, rest, hnext, hrest, rfl⟩ := pages_cases h
    · cases hpage
    · rw [List.dropLast_cons_of_ne_nil (ne_nil_of_pages hrest), List.mem_cons] at hpage
      rcases hpage with rfl | hlater
      · have hbound := (List.getElem?_eq_some_iff.mp hnext).1
        rw [List.length_take]
        omega
      · exact ih hrest page hlater

/-- There is no cut in a listing that is a single page. -/
theorem cutsClean_of_last {start : Node} (hlast : (listing start)[size]? = none) :
    CutsClean step size listing start := by
  intro first next hfirst hnext
  rcases ReflTransGen.cases_head hfirst with rfl | ⟨second, hsecond, -⟩
  · rw [hlast] at hnext
    cases hnext
  · rw [hlast] at hsecond
    cases hsecond

theorem cutsClean_iff_of_next {start next : Node} (hnext : (listing start)[size]? = some next) :
    CutsClean step size listing start ↔
      (∀ node ∈ (listing start).drop size, ReflTransGen step next node) ∧
        CutsClean step size listing next := by
  constructor
  · intro hclean
    constructor
    · exact hclean start next ReflTransGen.refl hnext
    · intro first later hfirst hlater
      exact hclean first later (ReflTransGen.head hnext hfirst) hlater
  · rintro ⟨hhere, hclean⟩ first later hfirst hlater
    rcases ReflTransGen.cases_head hfirst with rfl | ⟨second, hsecond, hrest⟩
    · rw [hnext] at hlater
      cases hlater
      exact hhere
    · rw [hnext] at hsecond
      cases hsecond
      exact hclean first later hrest hlater

section

variable (hlisting : TopologicalListing step listing)

include hlisting

theorem reaches_of_mem_pages : ∀ (fuel : ℕ) {start : Node} {read : List (List Node)},
    pages size listing fuel start = some read → ∀ node ∈ read.flatten,
      ReflTransGen step start node := by
  intro fuel
  induction fuel with
  | zero =>
    intro start read h
    cases h
  | succ fuel ih =>
    intro start read h node hnode
    obtain ⟨-, rfl⟩ | ⟨next, rest, hnext, hrest, rfl⟩ := pages_cases h
    · rw [List.flatten_singleton] at hnode
      exact (hlisting.mem_iff start node).mp hnode
    · rw [List.flatten_cons, List.mem_append] at hnode
      rcases hnode with hpage | hlater
      · exact (hlisting.mem_iff start node).mp (List.mem_of_mem_take hpage)
      · have hstart := (hlisting.mem_iff start next).mp (List.mem_of_getElem? hnext)
        exact hstart.trans (ih hrest node hlater)

/-- No node is read twice. -/
theorem nodup_flatten_of_pages : ∀ (fuel : ℕ) {start : Node} {read : List (List Node)},
    pages size listing fuel start = some read → read.flatten.Nodup := by
  intro fuel
  induction fuel with
  | zero =>
    intro start read h
    cases h
  | succ fuel ih =>
    intro start read h
    obtain ⟨-, rfl⟩ | ⟨next, rest, hnext, hrest, rfl⟩ := pages_cases h
    · rw [List.flatten_singleton]
      exact hlisting.nodup start
    · rw [List.flatten_cons, List.nodup_append]
      refine ⟨(hlisting.nodup start).sublist (List.take_sublist _ _), ih hrest, ?_⟩
      intro node hpage other hlater heq
      rw [← heq] at hlater
      exact hlisting.not_reaches_of_mem_take hnext hpage
        (reaches_of_mem_pages hlisting fuel hrest node hlater)

/-- The reading has every node that the start reaches exactly when every cut is clean. -/
theorem complete_iff_cutsClean : ∀ (fuel : ℕ) {start : Node} {read : List (List Node)},
    pages size listing fuel start = some read →
      ((∀ node, ReflTransGen step start node → node ∈ read.flatten) ↔
        CutsClean step size listing start) := by
  intro fuel
  induction fuel with
  | zero =>
    intro start read h
    cases h
  | succ fuel ih =>
    intro start read h
    obtain ⟨hlast, rfl⟩ | ⟨next, rest, hnext, hrest, rfl⟩ := pages_cases h
    · constructor
      · intro _
        exact cutsClean_of_last hlast
      · intro _ node hnode
        rw [List.flatten_singleton]
        exact (hlisting.mem_iff start node).mpr hnode
    · rw [cutsClean_iff_of_next hnext, ← ih hrest]
      have hstart := (hlisting.mem_iff start next).mp (List.mem_of_getElem? hnext)
      have hnodup := hlisting.nodup start
      rw [← List.take_append_drop size (listing start), List.nodup_append] at hnodup
      constructor
      · intro hall
        -- what is behind the page can only have been read on a later one
        have hlater (node : Node) (hnode : ReflTransGen step start node)
            (hnot : node ∉ (listing start).take size) : node ∈ rest.flatten := by
          have hread := hall node hnode
          rw [List.flatten_cons, List.mem_append] at hread
          exact hread.resolve_left hnot
        constructor
        · intro node hdrop
          have hnode := (hlisting.mem_iff start node).mp (List.mem_of_mem_drop hdrop)
          apply reaches_of_mem_pages hlisting fuel hrest node
          exact hlater node hnode fun hpage ↦ hnodup.2.2 node hpage node hdrop rfl
        · intro node hnode
          exact hlater node (hstart.trans hnode) fun hpage ↦
            hlisting.not_reaches_of_mem_take hnext hpage hnode
      · rintro ⟨hbehind, hall⟩ node hnode
        have hmem := (hlisting.mem_iff start node).mpr hnode
        rw [← List.take_append_drop size (listing start), List.mem_append] at hmem
        rw [List.flatten_cons, List.mem_append]
        exact hmem.imp_right fun hdrop ↦ hall node (hbehind node hdrop)

end

end Flockctl.Graph
