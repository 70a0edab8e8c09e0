import Mathlib.Data.List.Basic

/-!
# Runs of event-driven systems

A system is a total step function from states and events to states, and a run applies the events
of a list from left to right. An event that is not enabled leaves the state unchanged, so every
list of events is a run. A discipline is a condition on an event and the state it meets; a
disciplined run meets it at every step. An invariant of disciplined steps holds after every
disciplined run, hence in every state such a run passes through.
-/

namespace Flockctl.Transition

universe u v

variable {State : Type u} {Event : Type v}

/-- The state a system reaches by the events of a list. -/
abbrev run (step : State → Event → State) (start : State) (events : List Event) : State :=
  events.foldl step start

/-- Every event of the run meets the condition `allowed` in the state it is applied to. -/
def Disciplined (step : State → Event → State) (allowed : State → Event → Prop) :
    State → List Event → Prop
  | _, [] => True
  | state, event :: events =>
      allowed state event ∧ Disciplined step allowed (step state event) events

section

variable {step : State → Event → State} {allowed : State → Event → Prop}

instance decidableDisciplined [∀ state event, Decidable (allowed state event)] :
    ∀ (events : List Event) (state : State), Decidable (Disciplined step allowed state events)
  | [], _ => inferInstanceAs (Decidable True)
  | event :: events, state =>
      have := decidableDisciplined events (step state event)
      inferInstanceAs (Decidable (allowed state event ∧ _))

@[simp] theorem disciplined_nil (state : State) : Disciplined step allowed state [] := trivial

@[simp] theorem disciplined_cons (state : State) (event : Event) (events : List Event) :
    Disciplined step allowed state (event :: events) ↔
      allowed state event ∧ Disciplined step allowed (step state event) events := Iff.rfl

theorem disciplined_append (state : State) (before after : List Event) :
    Disciplined step allowed state (before ++ after) ↔
      Disciplined step allowed state before ∧
        Disciplined step allowed (run step state before) after := by
  induction before generalizing state with
  | nil => simp
  | cons event before ih => simp [ih, and_assoc]

/-- A run is disciplined exactly when each of its events is allowed in the state it meets. -/
theorem disciplined_iff_forall_event (state : State) (events : List Event) :
    Disciplined step allowed state events ↔
      ∀ before event, before ++ [event] <+: events → allowed (run step state before) event := by
  induction events generalizing state with
  | nil =>
    refine iff_of_true trivial fun before event hprefix ↦ ?_
    have hnil := List.prefix_nil.mp hprefix
    exact absurd hnil (List.append_ne_nil_of_right_ne_nil before (List.cons_ne_nil _ _))
  | cons event events ih =>
    rw [disciplined_cons, ih]
    constructor
    · rintro ⟨hfirst, hrest⟩ before other hprefix
      cases before with
      | nil =>
        obtain ⟨rfl, -⟩ := List.cons_prefix_cons.mp hprefix
        exact hfirst
      | cons first before =>
        obtain ⟨rfl, htail⟩ := List.cons_prefix_cons.mp hprefix
        exact hrest before other htail
    · intro hall
      refine ⟨hall [] event ⟨events, rfl⟩, fun before other hprefix ↦ ?_⟩
      exact hall (event :: before) other (List.cons_prefix_cons.mpr ⟨rfl, hprefix⟩)

/-- Two conditions that agree wherever an invariant of the allowed steps holds discipline the same
runs. -/
theorem disciplined_congr_of_invariant {other : State → Event → Prop} {invariant : State → Prop}
    (hstep : ∀ state event, invariant state → allowed state event → invariant (step state event))
    (hsame : ∀ state event, invariant state → (allowed state event ↔ other state event))
    {state : State} (hstate : invariant state) (events : List Event) :
    Disciplined step allowed state events ↔ Disciplined step other state events := by
  induction events generalizing state with
  | nil => exact Iff.rfl
  | cons event events ih =>
    rw [disciplined_cons, disciplined_cons, ← hsame state event hstate]
    exact and_congr_right fun hallowed ↦ ih (hstep state event hstate hallowed)

/-- Two conditions that agree wherever an invariant holds discipline the same runs. -/
theorem disciplined_congr {other : State → Event → Prop} {invariant : State → Prop}
    (hstep : ∀ state event, invariant state → invariant (step state event))
    (hsame : ∀ state event, invariant state → (allowed state event ↔ other state event))
    {state : State} (hstate : invariant state) (events : List Event) :
    Disciplined step allowed state events ↔ Disciplined step other state events :=
  disciplined_congr_of_invariant (fun state event hinvariant _ ↦ hstep state event hinvariant)
    hsame hstate events

/-- What each allowed step preserves, each disciplined run preserves. -/
theorem run_invariant {invariant : State → Prop}
    (hstep : ∀ state event, invariant state → allowed state event → invariant (step state event))
    {state : State} (hstate : invariant state) (events : List Event)
    (hevents : Disciplined step allowed state events) : invariant (run step state events) := by
  induction events generalizing state with
  | nil => exact hstate
  | cons event events ih => exact ih (hstep state event hstate hevents.1) hevents.2

/-- An invariant of a disciplined run holds at every point the run passes through. -/
theorem run_invariant_before {invariant : State → Prop}
    (hstep : ∀ state event, invariant state → allowed state event → invariant (step state event))
    {state : State} (hstate : invariant state) (before after : List Event)
    (hevents : Disciplined step allowed state (before ++ after)) :
    invariant (run step state before) :=
  run_invariant hstep hstate before ((disciplined_append state before after).mp hevents).1

/-- Where an allowed step keeps an invariant that implies `good`, and a step to a good state is
allowed, the disciplined runs are those that pass through good states only. -/
theorem disciplined_iff_good {invariant good : State → Prop}
    (hstep : ∀ state event, invariant state → allowed state event → invariant (step state event))
    (hgood : ∀ state, invariant state → good state)
    (hexact : ∀ state event, invariant state → good (step state event) → allowed state event)
    {state : State} (hstate : invariant state) (events : List Event) :
    (∀ before, before <+: events → good (run step state before)) ↔
      Disciplined step allowed state events := by
  constructor
  · induction events generalizing state with
    | nil => exact fun _ ↦ trivial
    | cons event events ih =>
      intro hall
      have hfirst : allowed state event :=
        hexact state event hstate (hall [event] ⟨events, rfl⟩)
      refine ⟨hfirst, ih (hstep state event hstate hfirst) ?_⟩
      intro before hbefore
      exact hall (event :: before) (List.cons_prefix_cons.mpr ⟨rfl, hbefore⟩)
  · rintro hevents before ⟨after, rfl⟩
    exact hgood _ (run_invariant_before hstep hstate before after hevents)

end

/-- What the events of a list preserve, their run preserves. -/
theorem run_preserves_of_mem {step : State → Event → State} {invariant : State → Prop}
    (events : List Event)
    (hstep : ∀ event ∈ events, ∀ state, invariant state → invariant (step state event))
    {state : State} (hstate : invariant state) : invariant (run step state events) := by
  induction events generalizing state with
  | nil => exact hstate
  | cons event events ih =>
    apply ih fun other hother ↦ hstep other (List.mem_cons_of_mem event hother)
    exact hstep event List.mem_cons_self state hstate

/-- What every step preserves, every run preserves. -/
theorem run_preserves {step : State → Event → State} {invariant : State → Prop}
    (hstep : ∀ state event, invariant state → invariant (step state event))
    {state : State} (hstate : invariant state) (events : List Event) :
    invariant (run step state events) :=
  run_preserves_of_mem events (fun event _ state ↦ hstep state event) hstate

end Flockctl.Transition
