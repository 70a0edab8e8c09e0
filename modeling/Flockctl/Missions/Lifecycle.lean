import Flockctl.Missions.LedgerConservation

/-!
# The lifecycle of a mission

What a lifecycle that is respected asks of each step, and the steps that do not give it: a pending
trigger that starts after the mission stopped being active, a cost that exhausts the budget of a
mission that has ended, and a completion that finds the mission paused.
-/

namespace Flockctl.Missions

open Collections Transition BudgetEnforcer

namespace MissionLedger

variable {ledger : MissionLedger}

theorem row_evaluate (trigger : MissionTrigger) :
    (ledger.evaluate trigger).row = ledger.row := by
  rcases ledger.evaluate_cases trigger with ⟨context, -, heq⟩ | ⟨-, heq⟩ | heq
  all_goals rw [heq]

/-- A call in flight after the first segment was in flight before it, or is its own. -/
theorem get_evaluate {trigger : MissionTrigger} {call : ℕ} {context : EvaluatorContext}
    (hcall : (ledger.evaluate trigger).calls.get call = some context) :
    ledger.calls.get call = some context ∨
      (call = ledger.nextCall ∧ guardGates ledger.row trigger = .ok context ∧
        (ledger.evaluate trigger).nextCall = ledger.nextCall + 1) := by
  rcases ledger.evaluate_cases trigger with ⟨started, hgates, heq⟩ | ⟨-, heq⟩ | heq
  · rw [heq] at hcall ⊢
    rw [JsMap.get_set] at hcall
    split_ifs at hcall with hnew
    · cases hcall
      exact .inr ⟨hnew, hgates, rfl⟩
    · exact .inl hcall
  · rw [heq] at hcall
    exact .inl hcall
  · rw [heq] at hcall
    exact .inl hcall

theorem nextCall_le_evaluate (trigger : MissionTrigger) :
    ledger.nextCall ≤ (ledger.evaluate trigger).nextCall := by
  rcases ledger.evaluate_cases trigger with ⟨started, -, heq⟩ | ⟨-, heq⟩ | heq
  · rw [heq]
    exact Nat.le_succ _
  · simp only [heq, Nat.le_refl]
  · simp only [heq, Nat.le_refl]

theorem get_abandon {number call : ℕ} {context : EvaluatorContext}
    (hcall : (ledger.abandon number).calls.get call = some context) :
    ledger.calls.get call = some context := by
  change (ledger.calls.delete number).get call = _ at hcall
  exact (JsMap.get_delete_eq_some_iff.mp hcall).2

theorem settle_frame (number : ℕ) (result : EvaluatorResult) :
    (ledger.settle number result).nextCall = ledger.nextCall ∧
      ∀ call context, (ledger.settle number result).calls.get call = some context →
        ledger.calls.get call = some context := by
  rcases ledger.settle_cases number result with ⟨context, cost, -, -, heq⟩ | heq | heq
  · rw [heq]
    exact ⟨rfl, fun call context ↦ get_abandon⟩
  · rw [heq]
    exact ⟨rfl, fun call context ↦ get_abandon⟩
  · rw [heq]
    exact ⟨rfl, fun call context hcall ↦ hcall⟩

/-- Every call in flight has a number below the next one. -/
def Numbered (ledger : MissionLedger) : Prop :=
  ∀ call context, ledger.calls.get call = some context → call < ledger.nextCall

theorem completeMission_frame : ledger.completeMission.calls = ledger.calls ∧
    ledger.completeMission.nextCall = ledger.nextCall := by
  rcases ledger.completeMission_cases with ⟨-, heq⟩ | heq
  all_goals rw [heq]
  all_goals exact ⟨rfl, rfl⟩

theorem completeMission_status : ledger.completeMission.row.status =
    if ledger.row.status = .active then .completed else ledger.row.status := by
  unfold completeMission
  split_ifs <;> rfl

theorem Numbered.step (h : ledger.Numbered) (event : LedgerEvent) :
    (ledger.step event).Numbered := by
  cases event with
  | evaluate trigger =>
    intro call context hcall
    rcases get_evaluate hcall with hbefore | ⟨hnew, -, hnext⟩
    · exact Nat.lt_of_lt_of_le (h call context hbefore) (nextCall_le_evaluate trigger)
    · exact hnew ▸ hnext ▸ Nat.lt_succ_self _
  | settle number result =>
    obtain ⟨hnext, hcalls⟩ := ledger.settle_frame number result
    intro call context hcall
    exact hnext ▸ h call context (hcalls call context hcall)
  | throws number => exact fun call context hcall ↦ h call context (get_abandon hcall)
  | completeMission =>
    obtain ⟨hcalls, hnext⟩ := ledger.completeMission_frame
    intro call context hcall
    exact hnext ▸ h call context (hcalls ▸ hcall)
  | patch patch => exact h

end MissionLedger

def MissionStatus.isTerminal : MissionStatus → Bool
  | .completed | .failed | .aborted => true
  | .drafting | .active | .paused => false

namespace Supervision

/-- The step starts an evaluator that calls the model only for an active mission, overwrites a
terminal status only where the operator does, and a completion that is due leaves the mission
completed. -/
structure Lawful (s : Supervision) (event : SupervisorEvent) : Prop where
  starts_active : ∀ context,
    (s.step event).ledger.calls.get s.ledger.nextCall = some context →
    context.trigger.kind ≠ "heartbeat" → s.status = .active
  keeps_terminal : (∀ patch, event ≠ .patch patch) → s.status.isTerminal = true →
    (s.step event).status = s.status
  completes : ∀ number subscribed, event = .resume number →
    s.evaluations.get number = some ⟨subscribed, .settled true true⟩ →
    (s.step event).status = .completed

/-- The trigger that starts when the evaluation finishes. -/
def startsNext (s : Supervision) (number : ℕ) : Option MissionTrigger :=
  match s.evaluations.get number with
  | some ⟨subscribed, .finished⟩ => if subscribed then (handOff s.queue).2 else none
  | some ⟨_, .evaluating _⟩ | some ⟨_, .settled _ _⟩ | none => none

/-- The cost that is added when the evaluator of the evaluation returns the reply. -/
def charges (s : Supervision) (number : ℕ) (reply : SupervisorLLMReply) : Option BudgetDelta :=
  match s.evaluations.get number with
  | some ⟨_, .evaluating call⟩ =>
    (s.ledger.calls.get call).bind fun context ↦
      (validateDelta (supervisorEvaluator context.trigger reply).cost).toOption
  | some ⟨_, .settled _ _⟩ | some ⟨_, .finished⟩ | none => none

/-- A pending trigger starts while the mission is active, or is denied; a cost added to an ended
mission leaves its budget; and a completion that is due finds the mission active or completed. -/
def respectsLifecycle (s : Supervision) : SupervisorEvent → Bool
  | .finish number =>
    match s.startsNext number with
    | some _ => s.status = .active || !(check s.ledger.row).allowed
    | none => true
  | .settle number reply =>
    match s.charges number reply with
    | some cost => !s.status.isTerminal || !exhausted (spend s.ledger.row cost)
    | none => true
  | .resume number =>
    match s.evaluations.get number with
    | some ⟨_, .settled true true⟩ => s.status = .active || s.status = .completed
    | some ⟨_, .settled _ _⟩ | some ⟨_, .evaluating _⟩ | some ⟨_, .finished⟩ | none => true
  | .observe _ | .heartbeat | .throws _ | .patch _ => true

/-- What is pending was built from an event. -/
def Observed (queue : Option (MissionQueueState MissionTrigger)) : Prop :=
  ∀ trigger, queue = some ⟨some trigger⟩ → trigger.kind = "task_observed"

/-- Calls are numbered upwards, and what is pending was built from an event. -/
structure Orderly (s : Supervision) : Prop where
  fresh : s.ledger.Numbered
  pending : Observed s.queue

section

variable {s : Supervision}

/-! ## What every step keeps -/

theorem Orderly.get_nextCall (h : Orderly s) :
    s.ledger.calls.get s.ledger.nextCall = none := by
  apply Option.eq_none_iff_forall_ne_some.mpr
  intro context hcall
  exact Nat.lt_irrefl _ (h.fresh _ context hcall)

/-- The end of an evaluation starts the next trigger, or leaves the ledger alone. -/
theorem finish_cases (number : ℕ) :
    (s.startsNext number = none ∧ (s.finish number).ledger = s.ledger) ∨
    ∃ next, s.startsNext number = some next ∧ s.queue = some ⟨some next⟩ ∧
      (s.finish number).ledger = s.ledger.evaluate next := by
  unfold finish startsNext
  match hevaluation : s.evaluations.get number with
  | none => exact .inl ⟨rfl, rfl⟩
  | some ⟨_, .evaluating _⟩ => exact .inl ⟨rfl, rfl⟩
  | some ⟨_, .settled _ _⟩ => exact .inl ⟨rfl, rfl⟩
  | some ⟨false, .finished⟩ => exact .inl ⟨rfl, rfl⟩
  | some ⟨true, .finished⟩ =>
    match hqueue : s.queue with
    | none => exact .inl ⟨rfl, rfl⟩
    | some ⟨none⟩ => exact .inl ⟨rfl, rfl⟩
    | some ⟨some next⟩ => exact .inr ⟨next, rfl, rfl, rfl⟩

/-- The statement that completes the mission runs, or the ledger stays. -/
theorem resume_cases (number : ℕ) : (s.resume number).ledger = s.ledger ∨
    (s.resume number).ledger = s.ledger.completeMission := by
  unfold resume
  split
  · rename_i subscribed objectiveMet wasActive hevaluation
    cases objectiveMet with
    | true => exact .inr rfl
    | false => exact .inl rfl
  all_goals exact .inl rfl

/-- Every step of the supervisor is a step of the ledger or leaves it alone. -/
theorem step_ledger (hpending : Observed s.queue) (event : SupervisorEvent) :
    ∃ events : List LedgerEvent,
      (s.step event).ledger = run MissionLedger.step s.ledger events ∧
      ∀ trigger, .evaluate trigger ∈ events →
        trigger.kind = "task_observed" ∨ trigger.kind = "heartbeat" := by
  have hnone {ledger : MissionLedger} (hledger : ledger = s.ledger) :
      ∃ events : List LedgerEvent, ledger = run MissionLedger.step s.ledger events ∧
        ∀ trigger, .evaluate trigger ∈ events →
          trigger.kind = "task_observed" ∨ trigger.kind = "heartbeat" :=
    ⟨[], hledger, fun trigger htrigger ↦ by cases htrigger⟩
  have hone {ledger : MissionLedger} (event : LedgerEvent)
      (hledger : ledger = s.ledger.step event)
      (hkind : ∀ trigger, event = .evaluate trigger →
        trigger.kind = "task_observed" ∨ trigger.kind = "heartbeat") :
      ∃ events : List LedgerEvent, ledger = run MissionLedger.step s.ledger events ∧
        ∀ trigger, .evaluate trigger ∈ events →
          trigger.kind = "task_observed" ∨ trigger.kind = "heartbeat" :=
    ⟨[event], hledger, fun trigger htrigger ↦ hkind trigger (List.mem_singleton.mp htrigger).symm⟩
  cases event with
  | observe event =>
    rw [step, observe]
    split_ifs
    · cases hqueue : s.queue with
      | none =>
        apply hone (.evaluate (buildTrigger event)) rfl
        intro trigger htrigger
        cases htrigger
        exact .inl rfl
      | some entry => exact hnone rfl
    · exact hnone rfl
  | heartbeat =>
    rw [step, heartbeat]
    split_ifs
    · apply hone (.evaluate ⟨"heartbeat", none⟩) rfl
      intro trigger htrigger
      cases htrigger
      exact .inr rfl
    · exact hnone rfl
  | settle number reply =>
    rw [step, settle]
    split
    · split
      · exact hnone rfl
      · exact hone (.settle _ _) rfl fun trigger htrigger ↦ by cases htrigger
    all_goals exact hnone rfl
  | throws number =>
    rw [step, throws]
    split
    · exact hone (.throws _) rfl fun trigger htrigger ↦ by cases htrigger
    all_goals exact hnone rfl
  | resume number =>
    rcases s.resume_cases number with hledger | hledger
    · exact hnone hledger
    · exact hone .completeMission hledger fun trigger htrigger ↦ by cases htrigger
  | finish number =>
    rcases s.finish_cases number with ⟨-, hledger⟩ | ⟨next, -, hqueue, hledger⟩
    · exact hnone hledger
    · apply hone (.evaluate next) hledger
      intro trigger htrigger
      cases htrigger
      exact .inl (hpending next hqueue)
  | patch patch => exact hone (.patch patch) rfl fun trigger htrigger ↦ by cases htrigger

theorem Observed.step (h : Observed s.queue) (event : SupervisorEvent) :
    Observed (s.step event).queue := by
  have hempty : Observed (some ⟨none⟩) := fun trigger hpending ↦ by cases hpending
  have hleft : Observed none := fun trigger hpending ↦ by cases hpending
  cases event with
  | observe event =>
    rw [Supervision.step, observe]
    split_ifs
    · cases hqueue : s.queue with
      | none => exact hempty
      | some entry =>
        intro trigger hpending
        cases hpending
        rfl
    · exact h
  | heartbeat =>
    rw [Supervision.step, heartbeat]
    split_ifs <;> exact h
  | settle number reply =>
    rw [Supervision.step, settle]
    split
    · split <;> exact h
    all_goals exact h
  | throws number =>
    rw [Supervision.step, throws]
    split <;> exact h
  | resume number =>
    rw [Supervision.step, resume]
    split <;> exact h
  | finish number =>
    rw [Supervision.step, finish]
    split
    · dsimp only
      split_ifs
      · match hqueue : s.queue with
        | none => exact hleft
        | some ⟨none⟩ => exact hleft
        | some ⟨some next⟩ => exact hempty
      · exact h
    all_goals exact h
  | patch patch => exact h

theorem Orderly.step (h : Orderly s) (event : SupervisorEvent) : Orderly (s.step event) := by
  obtain ⟨events, hledger, -⟩ := step_ledger h.pending event
  refine ⟨?_, h.pending.step event⟩
  rw [hledger]
  exact run_preserves (fun ledger event h ↦ h.step event) h.fresh events

/-! ## What a step starts and writes -/

theorem status_evaluate (subscribed : Bool) (trigger : MissionTrigger) :
    (s.evaluate subscribed trigger).status = s.status :=
  congrArg MissionRow.status (MissionLedger.row_evaluate trigger)

/-- A step that starts no evaluator and leaves the status alone is lawful unless it completes. -/
theorem Lawful.of_quiet {event : SupervisorEvent}
    (hidle : (s.step event).ledger.calls.get s.ledger.nextCall = none)
    (hstatus : (s.step event).status = s.status) (hevent : ∀ number, event ≠ .resume number) :
    Lawful s event where
  starts_active context hcall := by
    rw [hidle] at hcall
    cases hcall
  keeps_terminal _ _ := hstatus
  completes number _ hresume := absurd hresume (hevent number)

/-- A step that starts an evaluator for an active mission is lawful. -/
theorem Lawful.of_active {event : SupervisorEvent} (hactive : s.status = .active)
    (hstatus : (s.step event).status = s.status) (hevent : ∀ number, event ≠ .resume number) :
    Lawful s event where
  starts_active _ _ _ := hactive
  keeps_terminal _ _ := hstatus
  completes number _ hresume := absurd hresume (hevent number)

theorem Orderly.get_nextCall_of_frame (h : Orderly s) {ledger : MissionLedger}
    (hcalls : ∀ call context, ledger.calls.get call = some context →
      s.ledger.calls.get call = some context) :
    ledger.calls.get s.ledger.nextCall = none := by
  apply Option.eq_none_iff_forall_ne_some.mpr
  intro context hcall
  have hbefore := hcalls _ context hcall
  rw [h.get_nextCall] at hbefore
  cases hbefore

theorem Orderly.lawful_observe (h : Orderly s) (event : TaskTerminalEvent) :
    Lawful s (.observe event) := by
  by_cases hactive : s.status = .active
  · apply Lawful.of_active hactive
    · rw [Supervision.step, observe, if_pos hactive]
      cases hqueue : s.queue with
      | none => exact status_evaluate true (buildTrigger event)
      | some entry => rfl
    · exact fun number hresume ↦ by cases hresume
  · have hstep : s.step (.observe event) = s := by
      rw [Supervision.step, observe, if_neg hactive]
    apply Lawful.of_quiet
    · rw [hstep]
      exact h.get_nextCall
    · rw [hstep]
    · exact fun number hresume ↦ by cases hresume

theorem Orderly.lawful_heartbeat (h : Orderly s) : Lawful s .heartbeat := by
  by_cases hactive : s.status = .active
  · apply Lawful.of_active hactive
    · rw [Supervision.step, heartbeat, if_pos hactive]
      exact status_evaluate _ _
    · exact fun number hresume ↦ by cases hresume
  · have hstep : s.step .heartbeat = s := by
      rw [Supervision.step, heartbeat, if_neg hactive]
    apply Lawful.of_quiet
    · rw [hstep]
      exact h.get_nextCall
    · rw [hstep]
    · exact fun number hresume ↦ by cases hresume

/-- The return of an evaluator changes the ledger by its charge. -/
theorem settle_cases (number : ℕ) (reply : SupervisorLLMReply) :
    (s.charges number reply = none ∧ (s.settle number reply).status = s.status ∧
      ∀ call context, (s.settle number reply).ledger.calls.get call = some context →
        s.ledger.calls.get call = some context) ∨
    ∃ cost, s.charges number reply = some cost ∧
      (s.settle number reply).status = (increment s.ledger.row cost).1.status ∧
      ∀ call context, (s.settle number reply).ledger.calls.get call = some context →
        s.ledger.calls.get call = some context := by
  unfold settle charges
  match hevaluation : s.evaluations.get number with
  | none => exact .inl ⟨rfl, rfl, fun call context hcall ↦ hcall⟩
  | some ⟨subscribed, .settled objectiveMet wasActive⟩ =>
    exact .inl ⟨rfl, rfl, fun call context hcall ↦ hcall⟩
  | some ⟨subscribed, .finished⟩ => exact .inl ⟨rfl, rfl, fun call context hcall ↦ hcall⟩
  | some ⟨subscribed, .evaluating call⟩ =>
    dsimp only
    cases hcall : s.ledger.calls.get call with
    | none => exact .inl ⟨rfl, rfl, fun call context hcall ↦ hcall⟩
    | some context =>
      have hframe := (s.ledger.settle_frame call
        (supervisorEvaluator context.trigger reply)).2
      cases hcost : validateDelta (supervisorEvaluator context.trigger reply).cost with
      | error error =>
        refine .inl ⟨by rw [Option.bind_some, hcost]; rfl, ?_, hframe⟩
        change (s.ledger.settle call _).row.status = s.ledger.row.status
        rw [MissionLedger.settle, hcall]
        dsimp only
        rw [hcost]
        rfl
      | ok cost =>
        refine .inr ⟨cost, by rw [Option.bind_some, hcost]; rfl, ?_, hframe⟩
        change (s.ledger.settle call _).row.status = _
        rw [MissionLedger.settle, hcall]
        dsimp only
        rw [hcost]
        rfl

theorem Orderly.lawful_settle_iff (h : Orderly s) (number : ℕ) (reply : SupervisorLLMReply) :
    Lawful s (.settle number reply) ↔ s.respectsLifecycle (.settle number reply) = true := by
  rcases s.settle_cases number reply with ⟨hnone, hstatus, hcalls⟩ | ⟨cost, hcost, hstatus, hcalls⟩
  · simp only [respectsLifecycle, hnone, iff_true]
    exact Lawful.of_quiet (h.get_nextCall_of_frame hcalls) hstatus
      fun number hresume ↦ by cases hresume
  · simp only [respectsLifecycle, hcost, Bool.or_eq_true, Bool.not_eq_true']
    rw [increment_status] at hstatus
    constructor
    · intro hlawful
      by_contra hbad
      simp only [not_or, Bool.not_eq_false] at hbad
      have hkept := hlawful.keeps_terminal (fun patch hpatch ↦ by cases hpatch) hbad.1
      change (s.settle number reply).status = s.status at hkept
      have hrunning : s.ledger.row.status ≠ .paused := by
        intro hpaused
        have hterminal : s.ledger.row.status.isTerminal = true := hbad.1
        rw [hpaused] at hterminal
        cases hterminal
      rw [hstatus, if_pos (by simp [transitionsToPaused, hbad.2, hrunning])] at hkept
      exact hrunning hkept.symm
    · intro hallowed
      constructor
      · intro context hcall
        rw [Supervision.step, h.get_nextCall_of_frame hcalls] at hcall
        cases hcall
      · intro _ hterminal
        rw [Supervision.step, hstatus, if_neg]
        · rfl
        · simp only [transitionsToPaused, Bool.and_eq_true, not_and]
          intro hexhausted
          rcases hallowed with hrunning | hleft
          · rw [hterminal] at hrunning
            cases hrunning
          · rw [hexhausted] at hleft
            cases hleft
      · intro number subscribed hresume
        cases hresume

theorem Orderly.lawful_throws (h : Orderly s) (number : ℕ) : Lawful s (.throws number) := by
  have hframe : (s.throws number).status = s.status ∧
      ∀ call context, (s.throws number).ledger.calls.get call = some context →
        s.ledger.calls.get call = some context := by
    unfold throws
    split
    · exact ⟨rfl, fun call context ↦ MissionLedger.get_abandon⟩
    all_goals exact ⟨rfl, fun call context hcall ↦ hcall⟩
  exact Lawful.of_quiet (h.get_nextCall_of_frame hframe.2) hframe.1
    fun number hresume ↦ by cases hresume

theorem Orderly.lawful_resume_iff (h : Orderly s) (number : ℕ) :
    Lawful s (.resume number) ↔ s.respectsLifecycle (.resume number) = true := by
  obtain ⟨hcalls, hnext⟩ := s.ledger.completeMission_frame
  have hidle : (s.resume number).ledger.calls.get s.ledger.nextCall = none := by
    apply h.get_nextCall_of_frame
    intro call context hcall
    rcases s.resume_cases number with hledger | hledger
    · exact hledger ▸ hcall
    · rw [hledger, hcalls] at hcall
      exact hcall
  have hstatus : (s.resume number).status = s.status ∨
      (s.status = .active ∧ (s.resume number).status = .completed) := by
    rcases s.resume_cases number with hledger | hledger
    · exact .inl (congrArg (·.row.status) hledger)
    · have hcompleted : (s.resume number).status =
          if s.status = .active then .completed else s.status :=
        (congrArg (·.row.status) hledger).trans s.ledger.completeMission_status
      by_cases hactive : s.status = .active
      · rw [if_pos hactive] at hcompleted
        exact .inr ⟨hactive, hcompleted⟩
      · rw [if_neg hactive] at hcompleted
        exact .inl hcompleted
  have hdue {subscribed : Bool}
      (hevaluation : s.evaluations.get number = some ⟨subscribed, .settled true true⟩) :
      (s.resume number).status = .completed ↔ s.status = .active ∨ s.status = .completed := by
    have hcompleted : (s.resume number).status =
        if s.status = .active then .completed else s.status := by
      simp only [resume, hevaluation]
      exact MissionLedger.completeMission_status
    rw [hcompleted]
    split_ifs with hactive
    · simp [hactive]
    · simp [hactive]
  constructor
  · intro hlawful
    simp only [respectsLifecycle]
    split
    · rename_i subscribed hevaluation
      have hcompleted := hlawful.completes number subscribed rfl hevaluation
      simpa using (hdue hevaluation).mp hcompleted
    all_goals rfl
  · intro hallowed
    refine ⟨?_, ?_, ?_⟩
    · intro context hcall
      rw [Supervision.step, hidle] at hcall
      cases hcall
    · intro _ hterminal
      rcases hstatus with hkept | ⟨hactive, -⟩
      · exact hkept
      · rw [hactive] at hterminal
        cases hterminal
    · intro other subscribed hresume hevaluation
      cases hresume
      simp only [respectsLifecycle, hevaluation, Bool.or_eq_true, decide_eq_true_eq] at hallowed
      exact (hdue hevaluation).mpr hallowed

/-- A trigger that is no remediation passes the gates when the budget check does. -/
theorem guardGates_of_allowed {row : MissionRow} {trigger : MissionTrigger}
    (htrigger : trigger.kind = "task_observed") (hallowed : (check row).allowed = true) :
    guardGates row trigger = .ok ⟨trigger, 0, check row⟩ := by
  have hdepth : MaxDepthGuard.check trigger = ⟨true, 0⟩ := by
    simp [MaxDepthGuard.check, MaxDepthGuard.triggerDepth, htrigger]
  simp only [guardGates, hallowed, hdepth, if_true]

theorem allowed_of_guardGates {row : MissionRow} {trigger : MissionTrigger}
    {context : EvaluatorContext} (hgates : guardGates row trigger = .ok context) :
    (check row).allowed = true := by
  unfold guardGates at hgates
  dsimp only at hgates
  split_ifs at hgates with hallowed
  exact hallowed

theorem Orderly.lawful_finish_iff (h : Orderly s) (number : ℕ) :
    Lawful s (.finish number) ↔ s.respectsLifecycle (.finish number) = true := by
  rcases s.finish_cases number with ⟨hnone, hledger⟩ | ⟨next, hnext, hqueue, hledger⟩
  · simp only [respectsLifecycle, hnone, iff_true]
    apply Lawful.of_quiet
    · rw [Supervision.step, hledger]
      exact h.get_nextCall
    · rw [Supervision.step, status, hledger]
      rfl
    · exact fun number hresume ↦ by cases hresume
  · have hkind := h.pending next hqueue
    have hstatus : (s.step (.finish number)).status = s.status := by
      rw [Supervision.step, status, hledger, MissionLedger.row_evaluate]
      rfl
    simp only [respectsLifecycle, hnext, Bool.or_eq_true, decide_eq_true_eq, Bool.not_eq_true']
    constructor
    · intro hlawful
      by_contra hbad
      simp only [not_or, Bool.not_eq_false] at hbad
      apply hbad.1
      apply hlawful.starts_active ⟨next, 0, check s.ledger.row⟩
      · rw [Supervision.step, hledger, MissionLedger.evaluate,
          guardGates_of_allowed hkind hbad.2]
        exact JsMap.get_set_self _ _ _
      · change next.kind ≠ "heartbeat"
        rw [hkind]
        decide
    · intro hallowed
      rcases hallowed with hactive | hdenied
      · exact Lawful.of_active hactive hstatus fun number hresume ↦ by cases hresume
      · apply Lawful.of_quiet _ hstatus fun number hresume ↦ by cases hresume
        rw [Supervision.step, hledger]
        apply Option.eq_none_iff_forall_ne_some.mpr
        intro context hcall
        rcases MissionLedger.get_evaluate hcall with hbefore | ⟨-, hgates, -⟩
        · rw [h.get_nextCall] at hbefore
          cases hbefore
        · have hallowed := allowed_of_guardGates hgates
          rw [hdenied] at hallowed
          cases hallowed

theorem Orderly.lawful_patch (h : Orderly s) (patch : MissionPatch) : Lawful s (.patch patch) where
  starts_active context hcall := by
    have hidle : (s.step (.patch patch)).ledger.calls.get s.ledger.nextCall = none :=
      h.get_nextCall
    rw [hidle] at hcall
    cases hcall
  keeps_terminal hnone _ := absurd rfl (hnone patch)
  completes number _ hresume := by cases hresume

end

/-- The lifecycle is respected in every step of a run exactly when every pending trigger that starts
finds the mission active or is denied, no cost added to an ended mission exhausts its budget, and
every completion that is due finds the mission active or completed. -/
theorem lifecycle_respected_iff (row : MissionRow) (events : List SupervisorEvent) :
    Disciplined step Lawful { ledger := { row := row } } events ↔
      Disciplined step (fun s event ↦ s.respectsLifecycle event = true)
        { ledger := { row := row } } events := by
  have hstart : Orderly { ledger := { row := row } } :=
    ⟨fun call context hcall ↦ (by cases hcall), fun trigger hqueue ↦ (by cases hqueue)⟩
  apply disciplined_congr (fun s event h ↦ h.step event) _ hstart
  intro s event h
  cases event with
  | observe event => exact iff_of_true (h.lawful_observe event) rfl
  | heartbeat => exact iff_of_true h.lawful_heartbeat rfl
  | settle number reply => exact h.lawful_settle_iff number reply
  | throws number => exact iff_of_true (h.lawful_throws number) rfl
  | resume number => exact h.lawful_resume_iff number
  | finish number => exact h.lawful_finish_iff number
  | patch patch => exact iff_of_true (h.lawful_patch patch) rfl

/-- The model is called for an aborted mission, a completed mission is paused by the cost of a call
that was in flight, and an objective met at the price of the whole budget leaves the mission
paused. -/
theorem lifecycle_not_respected :
    ¬Disciplined step Lawful { ledger := { row := ⟨.active, 100, 100, 0, 0⟩ } }
      [.observe { taskId := 1, status := .task .failed },
        .observe { taskId := 2, status := .task .failed },
        .patch { status := some .aborted },
        .settle 0 ⟨.noAction "nothing to do yet", some (.number (.finite 1), .number (.finite 1))⟩,
        .resume 0, .finish 0] ∧
    ¬Disciplined step Lawful { ledger := { row := ⟨.active, 100, 100, 0, 0⟩ } }
      [.observe { taskId := 1, status := .task .failed }, .patch { status := some .completed },
        .settle 0
          ⟨.noAction "nothing to do yet", some (.number (.finite 100), .number (.finite 1))⟩] ∧
    ¬Disciplined step Lawful { ledger := { row := ⟨.active, 100, 100, 0, 0⟩ } }
      [.observe { taskId := 1, status := .task .done },
        .settle 0 ⟨.objectiveMet "all of it works", some (.number (.finite 100), .number (.finite 1))⟩,
        .resume 0] := by
  refine ⟨?_, ?_, ?_⟩
  · rintro ⟨-, -, -, -, -, hfinish, -⟩
    have hactive := hfinish.starts_active
      ⟨buildTrigger { taskId := 2, status := .task .failed }, 0, ⟨true, false, ⟨99, 99⟩⟩⟩
      (by rfl) (by decide)
    exact absurd hactive (by decide +kernel)
  · rintro ⟨-, -, hsettle, -⟩
    have hkept := hsettle.keeps_terminal (fun patch hpatch ↦ by cases hpatch) (by decide +kernel)
    exact absurd hkept (by decide +kernel)
  · rintro ⟨-, -, hresume, -⟩
    have hcompleted := hresume.completes 0 true rfl (by decide +kernel)
    exact absurd hcompleted (by decide +kernel)

end Supervision

end Flockctl.Missions
