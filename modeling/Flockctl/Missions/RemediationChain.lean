import Flockctl.AutoExecutor.PlanLookup
import Flockctl.Missions.Lifecycle
import Flockctl.Missions.Proposals

/-!
# Chains of remediations

An evaluation proposes a remediation, its approval creates a plan entity, the execution task of that
entity ends, and the event of its end triggers the next evaluation. The depth stands on the decision
events alone: neither the entity nor the task nor the event carries it, and the gate asks for it in
a kind of trigger the subscriber does not build.
-/

namespace Flockctl.Missions

open Collections Tasks Transition MaxDepthGuard

/-- A proposal that was approved, with the entity its approval created and the end of the execution
task of that entity. -/
structure Remediation where
  proposed : EvaluatorResult
  created : CreatedEntity
  taskId : ℕ
  status : TaskStatus
  errorMessage : Option String
  proposes : proposed.proposal.isSome = true
  ended : AutoExecutor.planStatusOf status = some .completed ∨
    AutoExecutor.planStatusOf status = some .failed

/-- What `syncPlanFromExecutionTask` emits at the end of the execution task. -/
def Remediation.terminalEvent (remediation : Remediation) : TaskTerminalEvent where
  taskId := remediation.taskId
  status := .task remediation.status
  error := remediation.errorMessage

/-- The triggers of the evaluations of a chain: the first one, and one for each remediation. -/
def chainTriggers (first : MissionTrigger) (remediations : List Remediation) :
    List MissionTrigger :=
  first :: remediations.map fun remediation ↦ buildTrigger remediation.terminalEvent

/-- Another depth in the payload of a trigger. -/
def MissionTrigger.withDepth (trigger : MissionTrigger) (depth : JsValue) : MissionTrigger :=
  { trigger with payload := some { trigger.payload.getD {} with depth := depth } }

/-- The depth on the events of the evaluations increases, and an evaluation behind more than
`MAX_ALLOWED_DEPTH` remediations is denied with a `depth_exceeded` event, whatever depth its payload
holds. -/
structure DepthBounded (first : MissionTrigger) (remediations : List Remediation) : Prop where
  increases : ((chainTriggers first remediations).map fun trigger ↦ (check trigger).depth).Pairwise
    (· < ·)
  denied : ∀ behind trigger, (chainTriggers first remediations)[behind]? = some trigger →
    MAX_ALLOWED_DEPTH < behind → ∀ ledger : MissionLedger,
      (BudgetEnforcer.check ledger.row).allowed = true →
      ledger.evaluate trigger = { ledger with events := ledger.events ++ [depthExceeded trigger] }
  unforgeable : ∀ behind trigger, (chainTriggers first remediations)[behind]? = some trigger →
    MAX_ALLOWED_DEPTH < behind → ∀ depth, (check (trigger.withDepth depth)).allowed = false

theorem check_of_kind {trigger : MissionTrigger} (hkind : trigger.kind ≠ "remediation") :
    check trigger = ⟨true, 0⟩ := by
  simp [check, triggerDepth, hkind]

theorem kind_buildTrigger (event : TaskTerminalEvent) :
    (buildTrigger event).kind = "task_observed" := rfl

theorem check_buildTrigger (event : TaskTerminalEvent) :
    check (buildTrigger event) = ⟨true, 0⟩ := by
  apply check_of_kind
  rw [kind_buildTrigger]
  decide

/-- A coerced depth is beyond a limit exactly for the numbers beyond it. -/
theorem lt_coerceDepth_iff (limit : ℕ) (depth : JsValue) :
    limit < coerceDepth depth ↔
      ∃ value : Rat, depth = .number (.finite value) ∧ ((limit + 1 : ℕ) : Rat) ≤ value := by
  unfold coerceDepth
  split
  · rename_i value
    have hfloor : limit < value.floor.toNat ↔ ((limit + 1 : ℕ) : Rat) ≤ value := by
      have hcast : ((limit + 1 : ℕ) : Rat) = (((limit + 1 : ℕ) : ℤ) : Rat) := rfl
      rw [hcast, ← Rat.le_floor_iff]
      omega
    split_ifs with hnegative
    · constructor
      · intro hlt
        exact absurd hlt (Nat.not_lt_zero limit)
      · rintro ⟨other, hsame, hbeyond⟩
        cases hsame
        have hpositive : (0 : Rat) ≤ value := Rat.le_trans (Rat.natCast_nonneg) hbeyond
        exact absurd hnegative (Rat.not_lt.mpr hpositive)
    · rw [hfloor]
      constructor
      · exact fun hbeyond ↦ ⟨value, rfl, hbeyond⟩
      · rintro ⟨other, hsame, hbeyond⟩
        cases hsame
        exact hbeyond
  all_goals
    constructor
    · intro hlt
      exact absurd hlt (Nat.not_lt_zero limit)
    · rintro ⟨value, hsame, -⟩
      cases hsame

theorem denied_iff (trigger : MissionTrigger) : (check trigger).allowed = false ↔
    trigger.kind = "remediation" ∧ ∃ payload value, trigger.payload = some payload ∧
      payload.depth = .number (.finite value) ∧ ((MAX_ALLOWED_DEPTH + 1 : ℕ) : Rat) ≤ value := by
  by_cases hkind : trigger.kind = "remediation"
  · have hdepth : (check trigger).allowed = false ↔
        MAX_ALLOWED_DEPTH < coerceDepth
          ((trigger.payload.map TriggerPayload.depth).getD .undefined) := by
      simp only [check, triggerDepth, if_pos hkind, decide_eq_false_iff_not, Nat.not_le]
    rw [hdepth, lt_coerceDepth_iff]
    cases hpayload : trigger.payload with
    | none => simp
    | some payload => simp [hkind]
  · rw [check_of_kind hkind]
    simp [hkind]

/-- The depth grows along a chain only where the chain has no remediation. -/
theorem depthBounded_iff (first : MissionTrigger) (remediations : List Remediation) :
    DepthBounded first remediations ↔ remediations = [] := by
  constructor
  · intro hbounded
    cases remediations with
    | nil => rfl
    | cons remediation rest =>
      have hincreases := hbounded.increases
      simp only [chainTriggers, List.map_cons, List.pairwise_cons, List.mem_cons,
        check_buildTrigger] at hincreases
      exact absurd (hincreases.1 0 (.inl rfl)) (Nat.not_lt_zero _)
  · intro hnone
    have hsingle {behind : ℕ} {trigger : MissionTrigger}
        (htrigger : (chainTriggers first remediations)[behind]? = some trigger) : behind = 0 := by
      rw [hnone] at htrigger
      have hlength := (List.getElem?_eq_some_iff.mp htrigger).1
      exact Nat.lt_one_iff.mp hlength
    refine ⟨?_, ?_, ?_⟩
    · rw [hnone]
      exact List.pairwise_singleton _ _
    · intro behind trigger htrigger hdeep
      rw [hsingle htrigger] at hdeep
      exact absurd hdeep (Nat.not_lt_zero _)
    · intro behind trigger htrigger hdeep
      rw [hsingle htrigger] at hdeep
      exact absurd hdeep (Nat.not_lt_zero _)

namespace MissionLedger

/-- No evaluator that runs and no event has a depth, and the gate has denied nothing. -/
structure Flat (ledger : MissionLedger) : Prop where
  calls : ∀ call context, ledger.calls.get call = some context → context.depth = 0
  events : ∀ event ∈ ledger.events, event.depth = 0 ∧ event.payload.isDepthExceeded = false

section

variable {ledger : MissionLedger}

theorem Flat.evaluate (h : ledger.Flat) {trigger : MissionTrigger}
    (hkind : trigger.kind ≠ "remediation") : (ledger.evaluate trigger).Flat := by
  have hgate := check_of_kind hkind
  unfold MissionLedger.evaluate guardGates
  simp only [hgate, if_true]
  split_ifs
  · refine ⟨?_, h.events⟩
    intro call context hcall
    rw [JsMap.get_set] at hcall
    split_ifs at hcall
    · cases hcall
      rfl
    · exact h.calls call context hcall
  · unfold classifyBudgetDenial
    split_ifs <;> exact h

theorem Flat.abandon (h : ledger.Flat) (number : ℕ) : (ledger.abandon number).Flat :=
  ⟨fun call context hcall ↦ h.calls call context (get_abandon hcall), h.events⟩

theorem Flat.charge (h : ledger.Flat) {context : EvaluatorContext} (hdepth : context.depth = 0)
    (result : EvaluatorResult) (cost : BudgetDelta) :
    (ledger.charge context result cost).Flat := by
  refine ⟨h.calls, ?_⟩
  intro event hevent
  simp only [MissionLedger.charge, List.mem_append, List.mem_singleton] at hevent
  rcases hevent with (hbefore | hhalt) | rfl
  · exact h.events event hbefore
  · unfold BudgetEnforcer.increment at hhalt
    dsimp only at hhalt
    split_ifs at hhalt
    · rw [List.mem_singleton.mp hhalt]
      exact ⟨rfl, rfl⟩
    · cases hhalt
  · exact ⟨hdepth, rfl⟩

theorem Flat.step (h : ledger.Flat) {event : LedgerEvent}
    (hkind : ∀ trigger, event = .evaluate trigger → trigger.kind ≠ "remediation") :
    (ledger.step event).Flat := by
  cases event with
  | evaluate trigger => exact h.evaluate (hkind trigger rfl)
  | settle number result =>
    rw [MissionLedger.step]
    rcases ledger.settle_cases number result with ⟨context, cost, hcall, -, heq⟩ | heq | heq
    · rw [heq]
      exact (h.abandon number).charge (h.calls number context hcall) result cost
    · rw [heq]
      exact h.abandon number
    · rw [heq]
      exact h
  | throws number => exact h.abandon number
  | completeMission =>
    rw [MissionLedger.step]
    rcases ledger.completeMission_cases with ⟨-, heq⟩ | heq
    · rw [heq]
      exact ⟨h.calls, h.events⟩
    · rw [heq]
      exact h
  | patch patch => exact ⟨h.calls, h.events⟩

end

end MissionLedger

/-- In every run of the supervisor the depth gate denies nothing, because nothing it is asked about
has a depth. -/
theorem Supervision.flat_run (row : MissionRow) (events : List SupervisorEvent) :
    (run Supervision.step { ledger := { row := row } } events).ledger.Flat := by
  have hstep (s : Supervision) (event : SupervisorEvent)
      (h : Supervision.Observed s.queue ∧ s.ledger.Flat) :
      Supervision.Observed (s.step event).queue ∧ (s.step event).ledger.Flat := by
    obtain ⟨ledgerEvents, hledger, hkinds⟩ := Supervision.step_ledger h.1 event
    refine ⟨h.1.step event, ?_⟩
    rw [hledger]
    apply run_preserves_of_mem ledgerEvents _ h.2
    intro ledgerEvent hevent ledger hflat
    apply hflat.step
    intro trigger htrigger hremediation
    rcases hkinds trigger (htrigger ▸ hevent) with hobserved | hheartbeat
    · rw [hobserved] at hremediation
      exact absurd hremediation (by decide)
    · rw [hheartbeat] at hremediation
      exact absurd hremediation (by decide)
  have hstart : Supervision.Observed (none : Option (MissionQueueState MissionTrigger)) ∧
      MissionLedger.Flat { row := row } := by
    refine ⟨fun trigger hqueue ↦ (by cases hqueue), ?_, ?_⟩
    · intro call context hcall
      cases hcall
    · intro event hevent
      cases hevent
  exact (run_preserves hstep hstart events).2

/-- A chain has its depth bounded exactly when it has no remediation, and in no run of the
supervisor is an evaluation denied for its depth. A trigger beyond the true depth it has is denied
exactly when it is of kind `remediation` and its payload holds a number beyond the limit. -/
theorem remediation_depth_iff (first : MissionTrigger) (remediations : List Remediation)
    (row : MissionRow) (events : List SupervisorEvent) (trigger : MissionTrigger) (depth : ℕ) :
    (DepthBounded first remediations ↔ remediations = []) ∧
    (run Supervision.step { ledger := { row := row } } events).ledger.Flat ∧
    ((MAX_ALLOWED_DEPTH < depth → (check trigger).allowed = false) ↔
      depth ≤ MAX_ALLOWED_DEPTH ∨ (trigger.kind = "remediation" ∧
        ∃ payload value, trigger.payload = some payload ∧
          payload.depth = .number (.finite value) ∧
          ((MAX_ALLOWED_DEPTH + 1 : ℕ) : Rat) ≤ value)) := by
  refine ⟨depthBounded_iff first remediations, Supervision.flat_run row events, ?_⟩
  rw [denied_iff, ← Nat.not_lt]
  exact imp_iff_not_or

/-- One failed remediation behind a first evaluation breaks the bound, the evaluation behind three
of them is admitted, and a negative depth is admitted as depth 0. -/
theorem remediation_depth_not_bounded :
    (∃ remediation : Remediation, remediation.status = .failed ∧
      ¬DepthBounded ⟨"task_observed", none⟩ [remediation] ∧
      (chainTriggers ⟨"task_observed", none⟩ [remediation, remediation, remediation])[3]?.map check =
        some ⟨true, 0⟩) ∧
    check ⟨"remediation", some { depth := .number (.finite (-1)) }⟩ = ⟨true, 0⟩ := by
  refine ⟨⟨⟨{ proposal := some "slice", cost := none }, ⟨.slice, "00-fix", none, none⟩, 7, .failed,
    none, rfl, .inr rfl⟩, rfl, ?_, by decide +kernel⟩, by decide +kernel⟩
  intro hbounded
  have hincreases := hbounded.increases
  exact absurd hincreases (by decide +kernel)

end Flockctl.Missions
