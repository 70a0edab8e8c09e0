import Mathlib.Data.List.Dedup
import Mathlib.Data.List.Perm.Subperm

/-!
# Walking a finite graph with a worklist

A walk keeps the vertices that it has seen and a queue of those whose successors it has not looked
at yet. It takes the first vertex of the queue and adds the successors that it has not seen, and
ends when the queue is empty. The graph may have cycles: the walk ends because every vertex is
queued at most once. It sees the vertices that can be reached from where it starts, and no others.
-/

namespace Flockctl.Graph

/-- The successors of a vertex are in the list of vertices. -/
structure FiniteGraph (Vertex : Type) where
  vertices : List Vertex
  next : Vertex → List Vertex
  closed : ∀ vertex, ∀ target ∈ next vertex, target ∈ vertices

variable {Vertex : Type} [DecidableEq Vertex]

/-- What a walk has seen, and its queue. -/
structure Frontier (Vertex : Type) where
  seen : List Vertex
  queue : List Vertex

/-- A vertex is seen and queued, unless it has been seen before. -/
def Frontier.visit (frontier : Frontier Vertex) (vertex : Vertex) : Frontier Vertex :=
  if vertex ∈ frontier.seen then frontier
  else { seen := frontier.seen ++ [vertex], queue := frontier.queue ++ [vertex] }

/-- The vertices of a list are visited in their order. -/
def Frontier.visitAll (frontier : Frontier Vertex) (targets : List Vertex) : Frontier Vertex :=
  targets.foldl Frontier.visit frontier

/-- A round adds some of the successors, each once and to both lists, so that all are seen. -/
theorem exists_added (frontier : Frontier Vertex) (targets : List Vertex) :
    ∃ added : List Vertex,
      frontier.visitAll targets =
          { seen := frontier.seen ++ added, queue := frontier.queue ++ added } ∧
        added.Nodup ∧ (∀ vertex ∈ added, vertex ∉ frontier.seen ∧ vertex ∈ targets) ∧
          ∀ vertex ∈ targets, vertex ∈ frontier.seen ++ added := by
  rw [Frontier.visitAll]
  induction targets generalizing frontier with
  | nil => exact ⟨[], by simp, List.nodup_nil, by simp, by simp⟩
  | cons target targets ih =>
    rw [List.foldl_cons, Frontier.visit]
    split
    · rename_i hseen
      obtain ⟨added, hfold, hnodup, hnew, hall⟩ := ih frontier
      refine ⟨added, hfold, hnodup, ?_, ?_⟩
      · intro vertex hvertex
        exact ⟨(hnew vertex hvertex).1, List.mem_cons_of_mem _ (hnew vertex hvertex).2⟩
      · intro vertex hvertex
        rcases List.mem_cons.mp hvertex with rfl | hrest
        · exact List.mem_append_left _ hseen
        · exact hall vertex hrest
    · rename_i hfresh
      obtain ⟨added, hfold, hnodup, hnew, hall⟩ :=
        ih { seen := frontier.seen ++ [target], queue := frontier.queue ++ [target] }
      have hapart (vertex : Vertex) (hvertex : vertex ∈ added) :
          vertex ∉ frontier.seen ∧ vertex ≠ target := by
        have hout := (hnew vertex hvertex).1
        rw [List.mem_append, not_or, List.mem_singleton] at hout
        exact hout
      refine ⟨target :: added, ?_, ?_, ?_, ?_⟩
      · rw [hfold, List.append_assoc, List.append_assoc, List.singleton_append]
      · exact List.nodup_cons.mpr ⟨fun hmem ↦ (hapart target hmem).2 rfl, hnodup⟩
      · intro vertex hvertex
        rcases List.mem_cons.mp hvertex with rfl | hrest
        · exact ⟨hfresh, List.mem_cons_self⟩
        · exact ⟨(hapart vertex hrest).1, List.mem_cons_of_mem _ (hnew vertex hrest).2⟩
      · intro vertex hvertex
        rw [← List.singleton_append, ← List.append_assoc]
        rcases List.mem_cons.mp hvertex with rfl | hrest
        · exact List.mem_append_left _ (List.mem_append_right _ List.mem_cons_self)
        · exact hall vertex hrest

namespace FiniteGraph

variable (graph : FiniteGraph Vertex)

/-- The vertices that have not been seen. -/
def unseen (seen : List Vertex) : List Vertex := graph.vertices.dedup.filter (· ∉ seen)

/-- What is added to the queue leaves the vertices that have not been seen. -/
theorem length_unseen_append {seen added : List Vertex} (hnodup : added.Nodup)
    (hnew : ∀ vertex ∈ added, vertex ∉ seen ∧ vertex ∈ graph.vertices) :
    (graph.unseen (seen ++ added)).length + added.length ≤ (graph.unseen seen).length := by
  have hsub : ∀ vertex ∈ graph.unseen (seen ++ added) ++ added, vertex ∈ graph.unseen seen := by
    intro vertex hvertex
    simp only [unseen, List.mem_append, List.mem_filter, List.mem_dedup, decide_eq_true_eq,
      not_or] at hvertex ⊢
    rcases hvertex with ⟨hlisted, hout, -⟩ | hadded
    · exact ⟨hlisted, hout⟩
    · exact ⟨(hnew vertex hadded).2, (hnew vertex hadded).1⟩
  have happend : (graph.unseen (seen ++ added) ++ added).Nodup := by
    apply List.Nodup.append ((List.nodup_dedup _).filter _) hnodup
    intro vertex hvertex hadded
    have hout := of_decide_eq_true (List.mem_filter.mp hvertex).2
    exact hout (List.mem_append_right _ hadded)
  rw [← List.length_append]
  exact (List.subperm_of_subset happend hsub).length_le

/-- The vertices that the walk sees. It ends because a vertex that is queued has not been seen
before. -/
def walk : Frontier Vertex → List Vertex
  | ⟨seen, []⟩ => seen
  | ⟨seen, vertex :: rest⟩ => walk (Frontier.visitAll ⟨seen, rest⟩ (graph.next vertex))
termination_by frontier => 2 * (graph.unseen frontier.seen).length + frontier.queue.length
decreasing_by
  obtain ⟨added, hfold, hnodup, hnew, -⟩ := exists_added ⟨seen, rest⟩ (graph.next vertex)
  have hless := graph.length_unseen_append hnodup fun target htarget ↦
    ⟨(hnew target htarget).1, graph.closed vertex target (hnew target htarget).2⟩
  rw [hfold]
  simp only [List.length_append, List.length_cons] at hless ⊢
  omega

theorem walk_nil (seen : List Vertex) : graph.walk ⟨seen, []⟩ = seen := by rw [walk]

theorem walk_cons (seen rest : List Vertex) (vertex : Vertex) :
    graph.walk ⟨seen, vertex :: rest⟩ =
      graph.walk (Frontier.visitAll ⟨seen, rest⟩ (graph.next vertex)) := by rw [walk]

/-- The edges of the graph. -/
def Edge (vertex target : Vertex) : Prop := target ∈ graph.next vertex

/-- Everything seen can be reached, and what has left the queue has its successors seen. -/
structure Explores (start : Vertex) (frontier : Frontier Vertex) : Prop where
  start_seen : start ∈ frontier.seen
  reached : ∀ vertex ∈ frontier.seen, Relation.ReflTransGen graph.Edge start vertex
  queued : ∀ vertex ∈ frontier.queue, vertex ∈ frontier.seen
  expanded : ∀ vertex ∈ frontier.seen, vertex ∉ frontier.queue →
    ∀ target, graph.Edge vertex target → target ∈ frontier.seen

variable {graph} {start : Vertex}

omit [DecidableEq Vertex] in
theorem explores_start : graph.Explores start ⟨[start], [start]⟩ where
  start_seen := List.mem_cons_self
  reached vertex hvertex := by
    rw [List.mem_singleton.mp hvertex]
  queued _ h := h
  expanded _ hseen hout := absurd hseen hout

/-- One round keeps it. -/
theorem Explores.next {seen rest : List Vertex} {vertex : Vertex}
    (h : graph.Explores start ⟨seen, vertex :: rest⟩) :
    graph.Explores start (Frontier.visitAll ⟨seen, rest⟩ (graph.next vertex)) := by
  obtain ⟨added, hfold, -, hnew, hall⟩ := exists_added ⟨seen, rest⟩ (graph.next vertex)
  have hvertex : vertex ∈ seen := h.queued vertex List.mem_cons_self
  rw [hfold]
  constructor
  · exact List.mem_append_left _ h.start_seen
  · intro target htarget
    rcases List.mem_append.mp htarget with hseen | hadded
    · exact h.reached target hseen
    · exact (h.reached vertex hvertex).tail (hnew target hadded).2
  · intro target htarget
    rcases List.mem_append.mp htarget with hrest | hadded
    · exact List.mem_append_left _ (h.queued target (List.mem_cons_of_mem _ hrest))
    · exact List.mem_append_right _ hadded
  · intro source hsource hout target hedge
    rw [List.mem_append, not_or] at hout
    by_cases hsame : source = vertex
    · exact hall target (hsame ▸ hedge)
    · have hseen : source ∈ seen := (List.mem_append.mp hsource).resolve_right hout.2
      have hqueue : source ∉ vertex :: rest := by
        rw [List.mem_cons, not_or]
        exact ⟨hsame, hout.1⟩
      exact List.mem_append_left _ (h.expanded source hseen hqueue target hedge)

omit [DecidableEq Vertex] in
/-- A walk that has ended has seen what can be reached, and nothing else. -/
theorem Explores.mem_iff {seen : List Vertex} (h : graph.Explores start ⟨seen, []⟩)
    (vertex : Vertex) : vertex ∈ seen ↔ Relation.ReflTransGen graph.Edge start vertex := by
  constructor
  · exact h.reached vertex
  · intro hreaches
    induction hreaches with
    | refl => exact h.start_seen
    | tail _ hedge ih => exact h.expanded _ ih List.not_mem_nil _ hedge

theorem Explores.mem_walk_iff {frontier : Frontier Vertex} (h : graph.Explores start frontier)
    (vertex : Vertex) :
    vertex ∈ graph.walk frontier ↔ Relation.ReflTransGen graph.Edge start vertex := by
  induction frontier using walk.induct graph with
  | case1 seen =>
    rw [walk_nil]
    exact h.mem_iff vertex
  | case2 seen first rest ih =>
    rw [walk_cons]
    exact ih h.next

/-- A walk from a vertex sees exactly what can be reached from it. -/
theorem mem_walk_iff (graph : FiniteGraph Vertex) (start vertex : Vertex) :
    vertex ∈ graph.walk ⟨[start], [start]⟩ ↔ Relation.ReflTransGen graph.Edge start vertex :=
  explores_start.mem_walk_iff vertex

end FiniteGraph

end Flockctl.Graph
