import Flockctl.Collections.JsMap
import Flockctl.Graph.Worklist
import Flockctl.StateMachines.MermaidParser

/-!
# States that cannot be reached

The validator of state machines warns of every position of a state to which no path leads from the
initial state. Transitions from or to a state that is not listed are reported by other rules and
not followed here.
-/

namespace Flockctl.StateMachines

open Collections Graph

/-! ## The code -/

inductive ValidationCategory
  | initialNotInStates
  | transitionFromNotInStates
  | transitionToNotInStates
  | duplicateTransition
  | finalHasOutgoing
  | unreachableState
  deriving DecidableEq, Repr

inductive Severity
  | error
  | warning
  deriving DecidableEq, Repr

structure ValidationError where
  category : ValidationCategory
  severity : Severity
  message : String
  path : String
  deriving DecidableEq, Repr

local instance lawfulBEqText : LawfulBEq Text := inferInstance

namespace StateMachine

variable (sm : StateMachine)

/-- A set that is kept as a list. -/
def addTarget (target : Text) (targets : List Text) : List Text :=
  if target ∈ targets then targets else targets ++ [target]

def addTransition (adj : JsMap Text (List Text)) (t : Transition) : JsMap Text (List Text) :=
  if t.source ∈ sm.states ∧ t.target ∈ sm.states then adj.modify t.source (addTarget t.target)
  else adj

/-- `adj`, with the targets of each listed state. -/
def adjacency : JsMap Text (List Text) :=
  sm.transitions.foldl sm.addTransition
    (sm.states.foldl (fun adj state ↦ adj.set state []) JsMap.empty)

/-- `adj.get(cur) ?? []` -/
def neighbours (state : Text) : List Text := (sm.adjacency.get state).getD []

/-! ## The adjacency -/

/-- A transition between listed states. -/
def Moves (state target : Text) : Prop :=
  state ∈ sm.states ∧ target ∈ sm.states ∧
    ∃ t ∈ sm.transitions, t.source = state ∧ t.target = target

theorem mem_addTarget_iff (target other : Text) (targets : List Text) :
    other ∈ addTarget target targets ↔ other ∈ targets ∨ target = other := by
  rw [addTarget]
  split
  · rename_i hlisted
    constructor
    · exact Or.inl
    · rintro (hmem | rfl)
      · exact hmem
      · exact hlisted
  · rw [List.mem_append, List.mem_singleton, eq_comm]

theorem get_noTargets (states : List Text) (state : Text) :
    (states.foldl (fun adj state ↦ adj.set state ([] : List Text)) JsMap.empty).get state =
      if state ∈ states then some [] else none := by
  induction states using List.reverseRecOn with
  | nil => rfl
  | append_singleton states last ih =>
    rw [List.foldl_concat, JsMap.get_set, ih]
    by_cases hlast : state = last
    · rw [if_pos hlast, if_pos (List.mem_append_right _ (List.mem_singleton.mpr hlast))]
    · rw [if_neg hlast]
      congr 1
      rw [List.mem_append, List.mem_singleton, or_iff_left hlast]

/-- Every listed state has an entry, with the targets of the transitions so far. -/
theorem adjacency_of_transitions (transitions : List Transition) (state : Text) :
    ((transitions.foldl sm.addTransition
        (sm.states.foldl (fun adj state ↦ adj.set state []) JsMap.empty)).get state).isSome =
          decide (state ∈ sm.states) ∧
      ∀ target, target ∈ ((transitions.foldl sm.addTransition
        (sm.states.foldl (fun adj state ↦ adj.set state []) JsMap.empty)).get state).getD [] ↔
          state ∈ sm.states ∧ target ∈ sm.states ∧
            ∃ t ∈ transitions, t.source = state ∧ t.target = target := by
  induction transitions using List.reverseRecOn with
  | nil =>
    rw [List.foldl_nil, get_noTargets]
    by_cases hlisted : state ∈ sm.states
    · simp [hlisted]
    · simp [hlisted]
  | append_singleton transitions t ih =>
    obtain ⟨hsome, hmem⟩ := ih
    rw [List.foldl_concat]
    generalize transitions.foldl sm.addTransition _ = adj at hsome hmem ⊢
    have hmoves (target : Text) : (state ∈ sm.states ∧ target ∈ sm.states ∧
        ∃ other ∈ transitions ++ [t], other.source = state ∧ other.target = target) ↔
          target ∈ (adj.get state).getD [] ∨
            state ∈ sm.states ∧ target ∈ sm.states ∧ t.source = state ∧ t.target = target := by
      rw [hmem]
      simp only [List.mem_append, List.mem_singleton, or_and_right, exists_or, exists_eq_left,
        and_or_left]
    simp only [hmoves]
    rw [addTransition]
    split
    · rename_i hknown
      rw [JsMap.get_modify]
      by_cases hstate : state = t.source
      · subst hstate
        obtain ⟨targets, htargets⟩ := Option.isSome_iff_exists.mp
          (hsome.trans (decide_eq_true hknown.1))
        rw [if_pos rfl, htargets]
        refine ⟨(decide_eq_true hknown.1).symm, fun target ↦ ?_⟩
        rw [Option.map_some, Option.getD_some, Option.getD_some, mem_addTarget_iff]
        constructor
        · rintro (hmem | rfl)
          · exact Or.inl hmem
          · exact Or.inr ⟨hknown.1, hknown.2, rfl, rfl⟩
        · rintro (hmem | ⟨-, -, -, hsame⟩)
          · exact Or.inl hmem
          · exact Or.inr hsame
      · rw [if_neg hstate]
        refine ⟨hsome, fun target ↦ (or_iff_left ?_).symm⟩
        rintro ⟨-, -, hsource, -⟩
        exact hstate hsource.symm
    · rename_i hunknown
      refine ⟨hsome, fun target ↦ (or_iff_left ?_).symm⟩
      rintro ⟨hstate, htarget, rfl, rfl⟩
      exact hunknown ⟨hstate, htarget⟩

theorem mem_neighbours_iff (state target : Text) :
    target ∈ sm.neighbours state ↔ sm.Moves state target :=
  (sm.adjacency_of_transitions sm.transitions state).2 target

def graph : FiniteGraph Text where
  vertices := sm.states
  next := sm.neighbours
  closed state target htarget := ((sm.mem_neighbours_iff state target).mp htarget).2.1

end StateMachine

def unreachableState (sm : StateMachine) (state : Text) (i : ℕ) : ValidationError where
  category := .unreachableState
  severity := .warning
  message := "state `" ++ String.ofList state ++ "` is not reachable from `initial` `" ++
    String.ofList sm.initial ++ "`"
  path := "states[" ++ toString i ++ "]"

def validateReachability (sm : StateMachine) : List ValidationError :=
  if sm.initial ∉ sm.states then []
  else
    let reachable := sm.graph.walk ⟨[sm.initial], [sm.initial]⟩
    (sm.states.zipIdx.filter fun entry ↦ entry.1 ∉ reachable).map fun entry ↦
      unreachableState sm entry.1 entry.2

/-- A path of transitions between listed states leads from the initial state to the state. -/
def StateMachine.Leads (sm : StateMachine) (state : Text) : Prop :=
  Relation.ReflTransGen sm.Moves sm.initial state

/-- The warnings are those of the positions of states that no path leads to, in their order. -/
def WarnsExactly (sm : StateMachine) (warnings : List ValidationError) : Prop :=
  ∃ entries : List (Text × ℕ),
    warnings = entries.map (fun entry ↦ unreachableState sm entry.1 entry.2) ∧
      (entries.map Prod.snd).Pairwise (· < ·) ∧
        ∀ state i, (state, i) ∈ entries ↔ sm.states[i]? = some state ∧ ¬sm.Leads state

theorem leads_iff (sm : StateMachine) (state : Text) :
    sm.Leads state ↔ state ∈ sm.graph.walk ⟨[sm.initial], [sm.initial]⟩ := by
  have hedges : sm.graph.Edge = sm.Moves := by
    funext source target
    exact propext (sm.mem_neighbours_iff source target)
  rw [FiniteGraph.mem_walk_iff, hedges]
  rfl

/-- A cycle that nothing leads to, and a state that is listed twice. -/
def islands : StateMachine where
  states := [['a'], ['b'], ['c'], ['b']]
  initial := ['a']
  transitions := [⟨['b'], ['c'], []⟩, ⟨['c'], ['b'], []⟩, ⟨['a'], ['x'], []⟩]
  final := none

end Flockctl.StateMachines
