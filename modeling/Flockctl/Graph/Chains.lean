import Mathlib.Data.Set.Finite.Basic
import Mathlib.Order.Bounds.Basic
import Mathlib.Order.WellFounded

/-!
# Layers of a dependency graph

A relation says which node needs which. A list of layers is an order of work for it when no node
needs another one of its own layer or of a later layer; so whatever a node needs lies behind it
once its layer is at the head of the list. Among finitely many nodes of an acyclic graph there is
one that needs none of the others, which is why such an order can be found by taking layer after
layer the nodes that need only what has been taken.
-/

namespace Flockctl.Graph

universe u v

variable {Node : Type u}

/-- No node needs itself, directly or through others. -/
def Acyclic (needs : Node → Node → Prop) : Prop := ∀ node, ¬Relation.TransGen needs node node

/-- A graph whose edges lead downwards in some ranking is acyclic. -/
theorem acyclic_of_rank {needs : Node → Node → Prop} (rank : Node → ℕ)
    (hrank : ∀ node other, needs node other → rank other < rank node) : Acyclic needs := by
  have hpath (node other : Node) (hpath : Relation.TransGen needs node other) :
      rank other < rank node := by
    induction hpath with
    | single hedge => exact hrank _ _ hedge
    | tail _ hedge ih => exact (hrank _ _ hedge).trans ih
  intro node hcycle
  exact lt_irrefl _ (hpath node node hcycle)

/-- Among the nodes of a nonempty list one needs no other node of the list. -/
theorem Acyclic.exists_minimal {needs : Node → Node → Prop} (hacyclic : Acyclic needs)
    {nodes : List Node} (hnodes : nodes ≠ []) :
    ∃ node ∈ nodes, ∀ other ∈ nodes, ¬needs node other := by
  let below (first second : {node // node ∈ nodes}) : Prop :=
    Relation.TransGen needs second.1 first.1
  have hfinite : Finite {node // node ∈ nodes} := List.finite_toSet nodes
  have htrans : IsTrans _ below := ⟨fun _ _ _ hfirst hsecond ↦ hsecond.trans hfirst⟩
  have hirrefl : Std.Irrefl below := ⟨fun node ↦ hacyclic node.1⟩
  obtain ⟨first, hfirst⟩ := List.exists_mem_of_ne_nil nodes hnodes
  have hwell : WellFounded below := Finite.wellFounded_of_trans_of_irrefl below
  obtain ⟨least, _, hleast⟩ := hwell.has_min Set.univ ⟨⟨first, hfirst⟩, trivial⟩
  refine ⟨least.1, least.2, ?_⟩
  intro other hother hedge
  exact hleast ⟨other, hother⟩ trivial (Relation.TransGen.single hedge)

/-- No node needs a node of its own layer or of a later one. -/
def Layered (needs : Node → Node → Prop) : List (List Node) → Prop
  | [] => True
  | layer :: rest =>
      (∀ node ∈ layer, ∀ other, needs node other → other ∉ (layer :: rest).flatten) ∧
        Layered needs rest

section

variable {needs : Node → Node → Prop}

@[simp] theorem layered_nil : Layered needs [] := trivial

/-- A layer can be put in front when what its nodes need has been taken before, and nothing that
has been taken is still to come. -/
theorem Layered.cons {layer : List Node} {rest : List (List Node)} {taken : Node → Prop}
    (hrest : Layered needs rest)
    (hneeds : ∀ node ∈ layer, ∀ other, needs node other → taken other)
    (hfresh : ∀ node ∈ (layer :: rest).flatten, ¬taken node) : Layered needs (layer :: rest) := by
  refine ⟨?_, hrest⟩
  intro node hnode other hother hmem
  exact hfresh other hmem (hneeds node hnode other hother)

end

/-- Nodes are dispatched one after the other, and a dispatch is good when its node was ready. If
dispatching one node makes no other ready or unready, the whole layer is dispatched well exactly
when all its nodes are ready beforehand. -/
theorem foldl_dispatch_iff {State : Type v} {dispatch : State → Node → State}
    {invariant good : State → Prop} {ready : State → Node → Prop}
    (hinvariant : ∀ state node, invariant state → invariant (dispatch state node))
    (hgood : ∀ state node, invariant state →
      (good (dispatch state node) ↔ good state ∧ ready state node))
    (hready : ∀ state node other, invariant state →
      (ready (dispatch state node) other ↔ ready state other))
    (nodes : List Node) {state : State} (hstate : invariant state) :
    good (nodes.foldl dispatch state) ↔ good state ∧ ∀ node ∈ nodes, ready state node := by
  induction nodes generalizing state with
  | nil => simp
  | cons node nodes ih =>
    calc good ((node :: nodes).foldl dispatch state)
        ↔ good (dispatch state node) ∧ ∀ other ∈ nodes, ready (dispatch state node) other :=
          ih (hinvariant state node hstate)
      _ ↔ (good state ∧ ready state node) ∧ ∀ other ∈ nodes, ready state other := by
          rw [hgood state node hstate]
          simp only [hready state node _ hstate]
      _ ↔ good state ∧ ∀ other ∈ node :: nodes, ready state other := by
          rw [List.forall_mem_cons, and_assoc]

end Flockctl.Graph

/-!
# Chains of a dependency graph

Work on a graph goes by rounds: a round takes the listed nodes that need only nodes taken in
earlier rounds. A node is taken within a number of rounds when all chains of needs that end in it
are shorter and stay among the listed nodes, and so the round that takes it is the length of the
longest of them. Over finitely many nodes the rounds take exactly those from which no chain leads
to an unlisted node or into a cycle.
-/

namespace Flockctl.Graph

universe u

variable {Node : Type u}

/-- A chain of so many needs ends in the node. -/
def ChainEnds (needs : Node → Node → Prop) : ℕ → Node → Prop
  | 0, _ => True
  | length + 1, node => ∃ other, needs node other ∧ ChainEnds needs length other

/-- So many rounds are enough to take the node. -/
def TakenWithin (needs : Node → Node → Prop) (listed : Node → Prop) : ℕ → Node → Prop
  | 0, _ => False
  | rounds + 1, node =>
      listed node ∧ ∀ other, needs node other → TakenWithin needs listed rounds other

/-- No chain from the node leads to an unlisted node or into a cycle. -/
def Grounded (needs : Node → Node → Prop) (listed : Node → Prop) (node : Node) : Prop :=
  ∀ reached, Relation.ReflTransGen needs node reached →
    listed reached ∧ ¬Relation.TransGen needs reached reached

section

variable {needs : Node → Node → Prop} {listed : Node → Prop}

theorem TakenWithin.succ {rounds : ℕ} {node : Node}
    (htaken : TakenWithin needs listed rounds node) :
    TakenWithin needs listed (rounds + 1) node := by
  induction rounds generalizing node with
  | zero => cases htaken
  | succ rounds ih => exact ⟨htaken.1, fun other hneeds ↦ ih (htaken.2 other hneeds)⟩

theorem TakenWithin.mono {rounds more : ℕ} (hle : rounds ≤ more) {node : Node}
    (htaken : TakenWithin needs listed rounds node) : TakenWithin needs listed more node := by
  induction more, hle using Nat.le_induction with
  | base => exact htaken
  | succ more _ ih => exact ih.succ

theorem TakenWithin.isListed {rounds : ℕ} {node : Node}
    (htaken : TakenWithin needs listed rounds node) : listed node := by
  cases rounds with
  | zero => cases htaken
  | succ rounds => exact htaken.1

/-- A round that takes nothing is followed by no other that does. -/
theorem TakenWithin.of_stable {rounds : ℕ}
    (hstable : ∀ node, TakenWithin needs listed (rounds + 1) node →
      TakenWithin needs listed rounds node) {more : ℕ} {node : Node}
    (htaken : TakenWithin needs listed more node) : TakenWithin needs listed rounds node := by
  induction more generalizing node with
  | zero => cases htaken
  | succ more ih => exact hstable node ⟨htaken.1, fun other hneeds ↦ ih (htaken.2 other hneeds)⟩

theorem takenWithin_iff_forall_chainEnds
    (hclosed : ∀ node other, needs node other → listed other) {rounds : ℕ} {node : Node}
    (hlisted : listed node) :
    TakenWithin needs listed rounds node ↔
      ∀ length, ChainEnds needs length node → length < rounds := by
  induction rounds generalizing node with
  | zero =>
    constructor
    · intro htaken
      cases htaken
    · intro hshort
      exact absurd (hshort 0 trivial) (Nat.lt_irrefl 0)
  | succ rounds ih =>
    constructor
    · intro htaken length hchain
      cases length with
      | zero => exact Nat.succ_pos rounds
      | succ length =>
        obtain ⟨other, hneeds, hrest⟩ := hchain
        have hother : listed other := hclosed node other hneeds
        exact Nat.succ_lt_succ ((ih hother).mp (htaken.2 other hneeds) length hrest)
    · intro hshort
      refine ⟨hlisted, ?_⟩
      intro other hneeds
      apply (ih (hclosed node other hneeds)).mpr
      intro length hchain
      exact Nat.lt_of_succ_lt_succ (hshort (length + 1) ⟨other, hneeds, hchain⟩)

/-- A node that the next round takes ends a chain as long as the number of rounds before it, and
no longer one. -/
theorem isGreatest_chainEnds (hclosed : ∀ node other, needs node other → listed other)
    {rounds : ℕ} {node : Node} (htaken : TakenWithin needs listed (rounds + 1) node)
    (huntaken : ¬TakenWithin needs listed rounds node) :
    IsGreatest {length | ChainEnds needs length node} rounds := by
  have hlisted : listed node := htaken.isListed
  have hshort := (takenWithin_iff_forall_chainEnds hclosed hlisted).mp htaken
  rw [takenWithin_iff_forall_chainEnds hclosed hlisted] at huntaken
  push Not at huntaken
  obtain ⟨length, hchain, hlong⟩ := huntaken
  have hexact : length = rounds := by
    have hlt := hshort length hchain
    omega
  constructor
  · exact hexact ▸ hchain
  · intro length hchain
    exact Nat.lt_succ_iff.mp (hshort length hchain)

theorem TakenWithin.of_transGen {rounds : ℕ} {node other : Node}
    (htaken : TakenWithin needs listed (rounds + 1) node)
    (hpath : Relation.TransGen needs node other) : TakenWithin needs listed rounds other := by
  induction hpath with
  | single hneeds => exact htaken.2 _ hneeds
  | tail _ hneeds ih =>
    exact ih.succ.2 _ hneeds

theorem TakenWithin.not_cycle {rounds : ℕ} {node : Node}
    (htaken : TakenWithin needs listed rounds node) : ¬Relation.TransGen needs node node := by
  intro hcycle
  induction rounds with
  | zero => cases htaken
  | succ rounds ih => exact ih (htaken.of_transGen hcycle)

theorem TakenWithin.grounded {rounds : ℕ} {node : Node}
    (htaken : TakenWithin needs listed rounds node) : Grounded needs listed node := by
  intro reached hpath
  have hreached : TakenWithin needs listed rounds reached := by
    rcases Relation.reflTransGen_iff_eq_or_transGen.mp hpath with rfl | hpath
    · exact htaken
    · exact htaken.succ.of_transGen hpath
  exact ⟨hreached.isListed, hreached.not_cycle⟩

theorem Grounded.isListed {node : Node} (hgrounded : Grounded needs listed node) : listed node :=
  (hgrounded node Relation.ReflTransGen.refl).1

theorem Grounded.of_needs {node other : Node} (hgrounded : Grounded needs listed node)
    (hneeds : needs node other) : Grounded needs listed other := by
  intro reached hpath
  exact hgrounded reached (hpath.head hneeds)

/-- One number of rounds takes all of finitely many nodes that are ever taken. -/
theorem exists_takenWithin_of_mem (nodes : List Node) :
    ∃ bound, ∀ node ∈ nodes, (∃ rounds, TakenWithin needs listed rounds node) →
      TakenWithin needs listed bound node := by
  induction nodes with
  | nil => exact ⟨0, by simp⟩
  | cons head nodes ih =>
    obtain ⟨bound, hbound⟩ := ih
    by_cases hhead : ∃ rounds, TakenWithin needs listed rounds head
    · obtain ⟨rounds, htaken⟩ := hhead
      refine ⟨max rounds bound, ?_⟩
      intro node hnode hever
      rcases List.mem_cons.mp hnode with rfl | hnode
      · exact htaken.mono (Nat.le_max_left rounds bound)
      · exact (hbound node hnode hever).mono (Nat.le_max_right rounds bound)
    · refine ⟨bound, ?_⟩
      intro node hnode hever
      rcases List.mem_cons.mp hnode with rfl | hnode
      · exact absurd hever hhead
      · exact hbound node hnode hever

/-- Among finitely many listed nodes the grounded ones are taken. -/
theorem Grounded.exists_takenWithin (nodes : List Node)
    (hnodes : ∀ node, listed node → node ∈ nodes) {node : Node}
    (hgrounded : Grounded needs listed node) :
    ∃ rounds, TakenWithin needs listed rounds node := by
  classical
  -- the grounded nodes that are never taken, of which one would need no other
  let stuck := nodes.filter fun node ↦
    Grounded needs listed node ∧ ¬∃ rounds, TakenWithin needs listed rounds node
  by_contra hnever
  have hstuck : node ∈ stuck := by
    simpa [stuck] using ⟨hnodes node hgrounded.isListed, hgrounded, by simpa using hnever⟩
  let edge (first second : Node) : Prop := Grounded needs listed first ∧ needs first second
  have hacyclic : Acyclic edge := by
    intro first hcycle
    have hfirst : Grounded needs listed first := by
      obtain ⟨_, hedge, _⟩ := Relation.TransGen.head'_iff.mp hcycle
      exact hedge.1
    have hneeds : Relation.TransGen needs first first :=
      Relation.TransGen.mono (fun _ _ hedge ↦ hedge.2) _ _ hcycle
    exact (hfirst first Relation.ReflTransGen.refl).2 hneeds
  obtain ⟨least, hleast, hminimal⟩ := hacyclic.exists_minimal (List.ne_nil_of_mem hstuck)
  have hgroundedLeast : Grounded needs listed least ∧
      ¬∃ rounds, TakenWithin needs listed rounds least := by
    simpa [stuck] using (List.mem_filter.mp hleast).2
  obtain ⟨bound, hbound⟩ := @exists_takenWithin_of_mem Node needs listed nodes
  apply hgroundedLeast.2
  refine ⟨bound + 1, hgroundedLeast.1.isListed, ?_⟩
  intro other hneeds
  have hother : Grounded needs listed other := hgroundedLeast.1.of_needs hneeds
  apply hbound other (hnodes other hother.isListed)
  by_contra hneverOther
  apply hminimal other
  · simpa [stuck] using ⟨hnodes other hother.isListed, hother, by simpa using hneverOther⟩
  · exact ⟨hgroundedLeast.1, hneeds⟩

theorem exists_takenWithin_iff (nodes : List Node) (hnodes : ∀ node, listed node → node ∈ nodes)
    (node : Node) :
    (∃ rounds, TakenWithin needs listed rounds node) ↔ Grounded needs listed node := by
  constructor
  · intro ⟨rounds, htaken⟩
    exact htaken.grounded
  · exact fun hgrounded ↦ hgrounded.exists_takenWithin nodes hnodes

end

end Flockctl.Graph
