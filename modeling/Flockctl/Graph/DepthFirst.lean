import Mathlib.Data.List.Flatten
import Mathlib.Data.List.Nodup
import Mathlib.Data.List.ReduceOption

/-!
# Walking a forest depth first

A forest gives every vertex its children in the order of the walk, and a height that falls on every
way down, so that the walk below a vertex is a list. A walk with a stack takes the vertices in the
order of this list. A walker that collects as many things as a cap allows looks at its stops in
turn, and gives up before a stop once it has them: it has the first things of all, and tells whether
it has given up.
-/

namespace Flockctl.Graph

structure Forest (Vertex : Type) where
  children : Vertex → List Vertex
  height : Vertex → ℕ
  descends : ∀ vertex, ∀ child ∈ children vertex, height child < height vertex

namespace Forest

variable {Vertex : Type}

/-- A vertex and all that is below it, in the order of the walk. -/
def preorder (forest : Forest Vertex) (vertex : Vertex) : List Vertex :=
  vertex :: (forest.children vertex).attach.flatMap fun child ↦ forest.preorder child.1
termination_by forest.height vertex
decreasing_by exact forest.descends vertex child.1 child.2

variable (forest : Forest Vertex)

theorem preorder_eq (vertex : Vertex) :
    forest.preorder vertex = vertex :: (forest.children vertex).flatMap forest.preorder := by
  rw [preorder, List.flatMap_subtype (fun child _ ↦ rfl), List.unattach_attach]

/-- The top of a stack gives way to its children. -/
theorem flatMap_preorder_cons (vertex : Vertex) (stack : List Vertex) :
    (vertex :: stack).flatMap forest.preorder =
      vertex :: (forest.children vertex ++ stack).flatMap forest.preorder := by
  rw [List.flatMap_cons, preorder_eq, List.cons_append, List.flatMap_append]

theorem self_mem_preorder (vertex : Vertex) : vertex ∈ forest.preorder vertex := by
  rw [preorder_eq]
  exact List.mem_cons_self

variable {forest}

/-- What holds of the root and goes on to children holds of all that is below the root. -/
theorem preorder_induction (Holds : Vertex → Prop)
    (hchild : ∀ vertex, Holds vertex → ∀ child ∈ forest.children vertex, Holds child)
    {root vertex : Vertex} (hroot : Holds root) (h : vertex ∈ forest.preorder root) :
    Holds vertex := by
  rw [preorder_eq, List.mem_cons] at h
  rcases h with rfl | hbelow
  · exact hroot
  · obtain ⟨child, hmem, hvertex⟩ := List.mem_flatMap.mp hbelow
    exact preorder_induction Holds hchild (hchild root hroot child hmem) hvertex
termination_by forest.height root
decreasing_by exact forest.descends root child hmem

theorem child_mem_preorder {root vertex child : Vertex} (h : vertex ∈ forest.preorder root)
    (hchild : child ∈ forest.children vertex) : child ∈ forest.preorder root := by
  rw [preorder_eq, List.mem_cons] at h ⊢
  right
  rw [List.mem_flatMap]
  rcases h with rfl | hbelow
  · exact ⟨child, hchild, forest.self_mem_preorder child⟩
  · obtain ⟨next, hmem, hvertex⟩ := List.mem_flatMap.mp hbelow
    exact ⟨next, hmem, child_mem_preorder hvertex hchild⟩
termination_by forest.height root
decreasing_by exact forest.descends root next hmem

theorem height_le_of_mem_preorder {root vertex : Vertex} (h : vertex ∈ forest.preorder root) :
    forest.height vertex ≤ forest.height root := by
  apply preorder_induction (fun vertex ↦ forest.height vertex ≤ forest.height root) _
    (Nat.le_refl _) h
  intro next hnext child hchild
  exact Nat.le_trans (Nat.le_of_lt (forest.descends next child hchild)) hnext

/-- Where siblings have nothing in common below them, the walk comes to no vertex twice. -/
theorem nodup_preorder
    (hapart : ∀ vertex, (forest.children vertex).Pairwise fun child sibling ↦
      (forest.preorder child).Disjoint (forest.preorder sibling)) (root : Vertex) :
    (forest.preorder root).Nodup := by
  rw [preorder_eq, List.nodup_cons, List.nodup_flatMap]
  refine ⟨?_, ?_, hapart root⟩
  · intro hagain
    obtain ⟨child, hchild, hmem⟩ := List.mem_flatMap.mp hagain
    have hlower := forest.descends root child hchild
    have hle := height_le_of_mem_preorder hmem
    omega
  · intro child hchild
    exact nodup_preorder hapart child
termination_by forest.height root
decreasing_by exact forest.descends root child hchild

end Forest

section Collecting

variable {Thing : Type}

/-- The things at the stops, as far as the cap allows, and whether the walker has given up. -/
def collect (cap : ℕ) : List (Option Thing) → List Thing → List Thing × Bool
  | [], found => (found, false)
  | stop :: rest, found =>
    if cap ≤ found.length then (found, true) else collect cap rest (found ++ stop.toList)

theorem collect_append (cap : ℕ) (stops rest : List (Option Thing)) (found : List Thing) :
    collect cap (stops ++ rest) found =
      if (collect cap stops found).2 = true then collect cap stops found
      else collect cap rest (collect cap stops found).1 := by
  induction stops generalizing found with
  | nil => rfl
  | cons stop stops ih =>
    simp only [List.cons_append, collect]
    split
    · rfl
    · exact ih _

/-- A walker that has given up has all that the cap allows. -/
theorem le_length_of_collect {cap : ℕ} {stops : List (Option Thing)} {found : List Thing}
    (h : (collect cap stops found).2 = true) : cap ≤ (collect cap stops found).1.length := by
  induction stops generalizing found with
  | nil => cases h
  | cons stop stops ih =>
    simp only [collect] at h ⊢
    split at h
    · rename_i hfull
      rwa [if_pos hfull]
    · rename_i hroom
      rw [if_neg hroom]
      exact ih h

/-- A walker that has not given up has all the things. -/
theorem collect_of_not_given_up {cap : ℕ} {stops : List (Option Thing)} {found : List Thing}
    (h : (collect cap stops found).2 = false) :
    (collect cap stops found).1 = found ++ stops.reduceOption := by
  induction stops generalizing found with
  | nil => rw [collect, List.reduceOption_nil, List.append_nil]
  | cons stop stops ih =>
    simp only [collect] at h ⊢
    split at h
    · cases h
    · rename_i hroom
      rw [if_neg hroom, ih h]
      cases stop with
      | none => simp
      | some thing => simp

/-- The walker has the first things of all. -/
theorem collect_fst {cap : ℕ} {stops : List (Option Thing)} {found : List Thing}
    (h : found.length ≤ cap) :
    (collect cap stops found).1 = (found ++ stops.reduceOption).take cap := by
  induction stops generalizing found with
  | nil => rw [collect, List.reduceOption_nil, List.append_nil, List.take_of_length_le h]
  | cons stop stops ih =>
    simp only [collect]
    split
    · rename_i hfull
      rw [List.take_append_of_le_length hfull, List.take_of_length_le h]
    · rename_i hroom
      have hnext : (found ++ stop.toList).length ≤ cap := by
        rw [List.length_append]
        have hone : stop.toList.length ≤ 1 := by cases stop <;> simp
        omega
      rw [ih hnext]
      cases stop with
      | none => simp
      | some thing => simp

/-- With fewer things than the cap the walker does not give up. -/
theorem collect_snd_of_lt {cap : ℕ} {stops : List (Option Thing)} {found : List Thing}
    (h : (found ++ stops.reduceOption).length < cap) :
    (collect cap stops found).2 = false := by
  rw [← Bool.not_eq_true]
  intro hgiven
  have hfull := le_length_of_collect hgiven
  have hfound : found.length ≤ cap := by
    rw [List.length_append] at h
    omega
  rw [collect_fst hfound, List.length_take] at hfull
  omega

/-- With more things than the cap the walker gives up. -/
theorem collect_snd_of_gt {cap : ℕ} {stops : List (Option Thing)} {found : List Thing}
    (hfound : found.length ≤ cap) (h : cap < (found ++ stops.reduceOption).length) :
    (collect cap stops found).2 = true := by
  rw [← Bool.not_eq_false]
  intro hgiven
  have hall := collect_of_not_given_up hgiven
  have hfirst : (collect cap stops found).1 = (found ++ stops.reduceOption).take cap :=
    collect_fst hfound
  have hlength := congrArg List.length hfirst
  rw [hall, List.length_take] at hlength
  omega

end Collecting

end Flockctl.Graph
