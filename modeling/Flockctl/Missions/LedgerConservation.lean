import Flockctl.Missions.Supervisor
import Flockctl.Transition.Run

/-!
# The mission ledger is conserved and halts

What a mission has spent is what its decision events cost, through every interleaving of the
evaluators. Every pause by an addition writes one event of its own, and once a budget is exhausted
only the evaluators that run already can still be charged.
-/

namespace Flockctl.Missions

open Collections Transition BudgetEnforcer

namespace MissionLedger

/-- The events `guardedEvaluate` writes itself. -/
def decisions (ledger : MissionLedger) : List MissionEvent :=
  ledger.events.filter fun event ↦ !event.isHalt

/-- The `budget_exceeded` events of the enforcer. -/
def halts (ledger : MissionLedger) : List MissionEvent := ledger.events.filter MissionEvent.isHalt

/-- The row has spent what the row `start` had and what the decision events cost. -/
structure Conserved (start : MissionRow) (ledger : MissionLedger) : Prop where
  tokens : ledger.row.spentTokens =
    start.spentTokens + (ledger.decisions.map fun event ↦ event.cost.tokens).sum
  cents : ledger.row.spentUsdCents =
    start.spentUsdCents + (ledger.decisions.map fun event ↦ event.cost.cents).sum

/-- The event is the return of an evaluator whose cost pauses the mission. -/
def pauses (ledger : MissionLedger) : LedgerEvent → Bool
  | .settle number result =>
    ledger.row.status != .paused && (ledger.settle number result).row.status == .paused
  | .evaluate _ | .throws _ | .completeMission | .patch _ => false

/-- Since `ledger` no evaluator has started, every decision event since is the return of one that
ran then, and the row has spent at most `MAX_DELTA` more for each of them. -/
structure HaltedSince (ledger after : MissionLedger) : Prop where
  none_started : after.nextCall = ledger.nextCall
  returned : after.decisions.length + after.calls.size ≤
    ledger.decisions.length + ledger.calls.size
  tokens : after.row.spentTokens + after.calls.size * MAX_DELTA ≤
    ledger.row.spentTokens + ledger.calls.size * MAX_DELTA
  cents : after.row.spentUsdCents + after.calls.size * MAX_DELTA ≤
    ledger.row.spentUsdCents + ledger.calls.size * MAX_DELTA

def isPatch : LedgerEvent → Bool
  | .patch _ => true
  | .evaluate _ | .settle _ _ | .throws _ | .completeMission => false

section

variable {ledger : MissionLedger}

theorem increment_toList (row : MissionRow) (delta : BudgetDelta) :
    (increment row delta).2.toList.filter (fun event ↦ !event.isHalt) = [] ∧
      ((increment row delta).2.toList.filter MissionEvent.isHalt).length =
        if transitionsToPaused row delta then 1 else 0 := by
  unfold increment
  dsimp only
  split <;> exact ⟨rfl, rfl⟩

theorem decisions_charge (context : EvaluatorContext) (result : EvaluatorResult)
    (cost : BudgetDelta) : (ledger.charge context result cost).decisions =
      ledger.decisions ++ [decisionEvent context result cost] := by
  rw [decisions, charge, List.filter_append, List.filter_append, (increment_toList _ _).1,
    List.append_nil]
  rfl

theorem halts_charge (context : EvaluatorContext) (result : EvaluatorResult)
    (cost : BudgetDelta) : (ledger.charge context result cost).halts.length =
      ledger.halts.length + if transitionsToPaused ledger.row cost then 1 else 0 := by
  rw [halts, charge, List.filter_append, List.filter_append, List.length_append,
    List.length_append, (increment_toList _ _).2]
  rfl

/-- The first segment leaves the row alone, and its only event is a decision that costs nothing. -/
theorem evaluate_cases (trigger : MissionTrigger) :
    (∃ context, guardGates ledger.row trigger = .ok context ∧ ledger.evaluate trigger =
      { ledger with
        calls := ledger.calls.set ledger.nextCall context
        nextCall := ledger.nextCall + 1 }) ∨
    ((check ledger.row).allowed = true ∧ ledger.evaluate trigger =
      { ledger with events := ledger.events ++ [MaxDepthGuard.depthExceeded trigger] }) ∨
    ledger.evaluate trigger = ledger := by
  unfold evaluate guardGates
  dsimp only
  split_ifs with hbudget hdepth
  · exact .inl ⟨_, rfl, rfl⟩
  · exact .inr (.inl ⟨hbudget, rfl⟩)
  · unfold classifyBudgetDenial
    split_ifs <;> exact .inr (.inr rfl)

/-- The second segment charges the call it ends, or drops it. -/
theorem settle_cases (number : ℕ) (result : EvaluatorResult) :
    (∃ context cost, ledger.calls.get number = some context ∧
      validateDelta result.cost = .ok cost ∧
      ledger.settle number result = (ledger.abandon number).charge context result cost) ∨
    ledger.settle number result = ledger.abandon number ∨
    ledger.settle number result = ledger := by
  unfold settle
  cases hcall : ledger.calls.get number with
  | none => exact .inr (.inr rfl)
  | some context =>
    cases hcost : validateDelta result.cost with
    | error error => exact .inr (.inl rfl)
    | ok cost => exact .inl ⟨context, cost, rfl, rfl, rfl⟩

theorem completeMission_cases :
    (ledger.row.status = .active ∧ ledger.completeMission =
      { ledger with row := { ledger.row with status := .completed } }) ∨
    ledger.completeMission = ledger := by
  unfold completeMission
  split_ifs with hactive
  · exact .inl ⟨hactive, rfl⟩
  · exact .inr rfl

theorem Conserved.charge {start : MissionRow} (h : Conserved start ledger)
    (context : EvaluatorContext) (result : EvaluatorResult) (cost : BudgetDelta) :
    Conserved start (ledger.charge context result cost) where
  tokens := by
    rw [decisions_charge, List.map_append, List.sum_append_nat]
    calc (increment ledger.row cost).1.spentTokens
        = ledger.row.spentTokens + cost.tokens := increment_spentTokens _ _
      _ = start.spentTokens + (ledger.decisions.map fun event ↦ event.cost.tokens).sum +
            cost.tokens := by rw [h.tokens]
      _ = _ := by
        simp only [List.map_cons, List.map_nil, List.sum_cons, List.sum_nil, decisionEvent]
        omega
  cents := by
    rw [decisions_charge, List.map_append, List.sum_append_nat]
    calc (increment ledger.row cost).1.spentUsdCents
        = ledger.row.spentUsdCents + cost.cents := increment_spentUsdCents _ _
      _ = start.spentUsdCents + (ledger.decisions.map fun event ↦ event.cost.cents).sum +
            cost.cents := by rw [h.cents]
      _ = _ := by
        simp only [List.map_cons, List.map_nil, List.sum_cons, List.sum_nil, decisionEvent]
        omega

theorem Conserved.abandon {start : MissionRow} (h : Conserved start ledger) (number : ℕ) :
    Conserved start (ledger.abandon number) := ⟨h.tokens, h.cents⟩

theorem Conserved.step {start : MissionRow} (h : Conserved start ledger) (event : LedgerEvent) :
    Conserved start (ledger.step event) := by
  cases event with
  | evaluate trigger =>
    rw [MissionLedger.step]
    rcases ledger.evaluate_cases trigger with ⟨context, -, heq⟩ | ⟨-, heq⟩ | heq
    · rw [heq]
      exact ⟨h.tokens, h.cents⟩
    · have hfree : (MaxDepthGuard.depthExceeded trigger).cost = ⟨0, 0⟩ := rfl
      rw [heq]
      constructor
      · rw [decisions, List.filter_append, List.map_append, List.sum_append_nat]
        exact h.tokens
      · rw [decisions, List.filter_append, List.map_append, List.sum_append_nat]
        exact h.cents
    · rw [heq]
      exact h
  | settle number result =>
    rw [MissionLedger.step]
    rcases ledger.settle_cases number result with ⟨context, cost, -, -, heq⟩ | heq | heq
    · rw [heq]
      exact (h.abandon number).charge context result cost
    · rw [heq]
      exact h.abandon number
    · rw [heq]
      exact h
  | throws number => exact h.abandon number
  | completeMission =>
    rw [MissionLedger.step]
    rcases ledger.completeMission_cases with ⟨-, heq⟩ | heq
    · rw [heq]
      exact ⟨h.tokens, h.cents⟩
    · rw [heq]
      exact h
  | patch patch => exact ⟨h.tokens, h.cents⟩

theorem halts_step (event : LedgerEvent) : (ledger.step event).halts.length =
    ledger.halts.length + if ledger.pauses event then 1 else 0 := by
  cases event with
  | evaluate trigger =>
    rw [step]
    rcases ledger.evaluate_cases trigger with ⟨context, -, heq⟩ | ⟨-, heq⟩ | heq
    · rw [heq]
      rfl
    · rw [heq, halts, List.filter_append, List.length_append]
      rfl
    · rw [heq]
      rfl
  | settle number result =>
    have hpauses : ledger.pauses (.settle number result) =
        (ledger.row.status != .paused && (ledger.settle number result).row.status == .paused) :=
      rfl
    rw [step, hpauses]
    rcases ledger.settle_cases number result with ⟨context, cost, -, -, heq⟩ | heq | heq
    · have hstatus : (ledger.settle number result).row.status =
          if transitionsToPaused ledger.row cost then .paused else ledger.row.status := by
        rw [heq]
        exact increment_status _ _
      rw [hstatus, heq, halts_charge]
      have hsame : (ledger.abandon number).halts = ledger.halts := rfl
      have hrow : (ledger.abandon number).row = ledger.row := rfl
      rw [hsame, hrow]
      by_cases hpause : transitionsToPaused ledger.row cost = true
      · have hrunning : (ledger.row.status != .paused) = true := by
          simp only [transitionsToPaused, Bool.and_eq_true] at hpause
          exact hpause.2
        rw [if_pos hpause, if_pos hpause, hrunning]
        rfl
      · rw [if_neg hpause, if_neg hpause]
        cases hstatus : ledger.row.status <;> rfl
    · rw [heq]
      change ledger.halts.length = _ + if (ledger.row.status != .paused &&
        ledger.row.status == .paused) = true then 1 else 0
      cases ledger.row.status <;> rfl
    · rw [heq]
      cases ledger.row.status <;> rfl
  | throws number => rfl
  | completeMission =>
    rw [step]
    rcases ledger.completeMission_cases with ⟨-, heq⟩ | heq
    · rw [heq]
      rfl
    · rw [heq]
      rfl
  | patch patch => rfl

theorem evaluate_of_exhausted (hexhausted : exhausted ledger.row = true)
    (trigger : MissionTrigger) : ledger.evaluate trigger = ledger := by
  have hdenied : (check ledger.row).allowed = false := by
    rw [Bool.eq_false_iff]
    intro hallowed
    rw [((check_allowed_iff ledger.row).mp hallowed).2] at hexhausted
    cases hexhausted
  rcases ledger.evaluate_cases trigger with ⟨context, hgates, -⟩ | ⟨hallowed, -⟩ | heq
  · simp [guardGates, hdenied] at hgates
  · rw [hdenied] at hallowed
    cases hallowed
  · exact heq

/-- The row is exhausted and has been since `ledger`. -/
structure Exhausted (ledger after : MissionLedger) : Prop extends HaltedSince ledger after where
  exhausted : exhausted after.row = true

theorem Exhausted.step {after : MissionLedger} (h : Exhausted ledger after) {event : LedgerEvent}
    (hevent : isPatch event = false) : Exhausted ledger (after.step event) := by
  have hdropped (number : ℕ) : Exhausted ledger (after.abandon number) := by
    have hsize : (after.calls.delete number).size ≤ after.calls.size :=
      JsMap.size_delete_le _ _
    have hcost := Nat.mul_le_mul_right MAX_DELTA hsize
    refine ⟨⟨h.none_started, ?_, ?_, ?_⟩, h.exhausted⟩
    · calc after.decisions.length + (after.calls.delete number).size
          ≤ after.decisions.length + after.calls.size := Nat.add_le_add_left hsize _
        _ ≤ ledger.decisions.length + ledger.calls.size := h.returned
    · calc after.row.spentTokens + (after.calls.delete number).size * MAX_DELTA
          ≤ after.row.spentTokens + after.calls.size * MAX_DELTA := Nat.add_le_add_left hcost _
        _ ≤ ledger.row.spentTokens + ledger.calls.size * MAX_DELTA := h.tokens
    · calc after.row.spentUsdCents + (after.calls.delete number).size * MAX_DELTA
          ≤ after.row.spentUsdCents + after.calls.size * MAX_DELTA := Nat.add_le_add_left hcost _
        _ ≤ ledger.row.spentUsdCents + ledger.calls.size * MAX_DELTA := h.cents
  cases event with
  | evaluate trigger =>
    rw [MissionLedger.step, evaluate_of_exhausted h.exhausted]
    exact h
  | settle number result =>
    rw [MissionLedger.step]
    rcases after.settle_cases number result with ⟨context, cost, hcall, hcost, heq⟩ | heq | heq
    · rw [heq]
      have hsize : (after.calls.delete number).size + 1 ≤ after.calls.size :=
        JsMap.size_delete_lt _ hcall
      have hpaid := Nat.mul_le_mul_right MAX_DELTA hsize
      obtain ⟨htokens, hcents⟩ := validateDelta_le hcost
      rw [Nat.add_mul, Nat.one_mul] at hpaid
      refine ⟨⟨h.none_started, ?_, ?_, ?_⟩, exhausted_increment _ _ h.exhausted⟩
      · rw [decisions_charge, List.length_append, List.length_singleton]
        have hreturned := h.returned
        change after.decisions.length + 1 + (after.calls.delete number).size ≤ _
        omega
      · have hbefore := h.tokens
        change (increment after.row cost).1.spentTokens +
          (after.calls.delete number).size * MAX_DELTA ≤ _
        rw [increment_spentTokens]
        omega
      · have hbefore := h.cents
        change (increment after.row cost).1.spentUsdCents +
          (after.calls.delete number).size * MAX_DELTA ≤ _
        rw [increment_spentUsdCents]
        omega
    · rw [heq]
      exact hdropped number
    · rw [heq]
      exact h
  | throws number => exact hdropped number
  | completeMission =>
    rw [MissionLedger.step]
    rcases after.completeMission_cases with ⟨-, heq⟩ | heq
    · rw [heq]
      exact ⟨⟨h.none_started, h.returned, h.tokens, h.cents⟩, h.exhausted⟩
    · rw [heq]
      exact h
  | patch patch => cases hevent

theorem haltedSince_run (hexhausted : exhausted ledger.row = true) (later : List LedgerEvent)
    (hlater : ∀ event ∈ later, isPatch event = false) :
    HaltedSince ledger (run step ledger later) := by
  have hstart : Exhausted ledger ledger :=
    ⟨⟨rfl, Nat.le_refl _, Nat.le_refl _, Nat.le_refl _⟩, hexhausted⟩
  have hrun : Exhausted ledger (run step ledger later) :=
    run_preserves_of_mem later (fun event hevent _ h ↦ h.step (hlater event hevent)) hstart
  exact hrun.toHaltedSince

end

/-- Through every run the ledger is conserved, a pause by an addition writes one event, nothing
else writes one, and from an exhausted budget on the mission is halted until the row is patched. -/
theorem ledger_conserved_and_halts (row : MissionRow) (events : List LedgerEvent) :
    Conserved row (run step { row := row } events) ∧
    (∀ event, ((run step { row := row } events).step event).halts.length =
      (run step { row := row } events).halts.length +
        if (run step { row := row } events).pauses event then 1 else 0) ∧
    (exhausted (run step { row := row } events).row = true →
      ∀ later, (∀ event ∈ later, isPatch event = false) →
        HaltedSince (run step { row := row } events)
          (run step (run step { row := row } events) later)) := by
  have hstart : Conserved row { row := row } := ⟨rfl, rfl⟩
  have hconserved := run_preserves (fun ledger event h ↦ h.step event) hstart events
  exact ⟨hconserved, halts_step, fun hexhausted ↦ haltedSince_run hexhausted⟩

/-- Two evaluators run when the first one spends the whole budget, and a trigger after that starts
none. -/
theorem ledger_halts_with_one_call_left :
    HaltedSince
      (run step { row := ⟨.active, 100, 100, 0, 0⟩ }
        [.evaluate ⟨"task_observed", none⟩, .evaluate ⟨"task_observed", none⟩,
          .settle 0 { cost := some (.number (.finite 120), .number (.finite 3)) }])
      (run step
        (run step { row := ⟨.active, 100, 100, 0, 0⟩ }
          [.evaluate ⟨"task_observed", none⟩, .evaluate ⟨"task_observed", none⟩,
            .settle 0 { cost := some (.number (.finite 120), .number (.finite 3)) }])
        [.evaluate ⟨"task_observed", none⟩,
          .settle 1 { cost := some (.number (.finite 40), .number (.finite 1)) }]) :=
  (ledger_conserved_and_halts ⟨.active, 100, 100, 0, 0⟩ _).2.2 (by decide +kernel) _
    (by decide)

end MissionLedger

end Flockctl.Missions
