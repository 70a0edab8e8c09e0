import Flockctl.Collections.Fallible
import Flockctl.Collections.JsParse
import Flockctl.Tasks.Table

/-!
# The budget of a mission

The row of a mission, its timeline, and the two methods of the budget enforcer. A cost is checked
before it is added; the addition, the pause and the `budget_exceeded` event are one transaction.
-/

namespace Flockctl.Missions

open Collections Tasks

inductive MissionStatus
  | drafting
  | active
  | paused
  | completed
  | failed
  | aborted
  deriving DecidableEq, Repr

/-- The values `mission_events_kind_check` admits. -/
inductive MissionEventKind
  | planProposed
  | taskObserved
  | remediationProposed
  | remediationApproved
  | remediationDismissed
  | budgetWarning
  | budgetExceeded
  | depthExceeded
  | noAction
  | objectiveMet
  | stalled
  | heartbeat
  | paused
  deriving DecidableEq, Repr

/-- The status of a terminal event: one of a task, or the one the stalled detector makes up. -/
inductive TerminalStatus
  | task (status : TaskStatus)
  | stalled
  deriving DecidableEq

/-- What a payload carries about the task it was made for, and the depth somebody put in it. -/
structure TriggerPayload where
  taskId : Option ℕ := none
  status : Option TerminalStatus := none
  taskOutput : Option String := none
  depth : JsValue := .undefined
  deriving DecidableEq

structure MissionTrigger where
  kind : String
  payload : Option TriggerPayload := none
  deriving DecidableEq

structure BudgetDelta where
  tokens : ℕ
  cents : ℕ
  deriving DecidableEq, Repr

structure MissionRow where
  status : MissionStatus
  budgetTokens : ℕ
  budgetUsdCents : ℕ
  spentTokens : ℕ
  spentUsdCents : ℕ
  deriving DecidableEq, Repr

/-- The payload of a row of `mission_events`, by the statement that inserts it: the enforcer's, the
depth gate's, or the one for decisions. -/
inductive MissionEventPayload
  | budgetExceeded (spent : MissionRow) (delta : BudgetDelta)
  | depthExceeded (payload : Option TriggerPayload) (depth maxAllowedDepth : ℕ)
      (triggerKind : String)
  | decision (eventPayload : Option String) (triggerKind : String) (proposal : Option String)
  deriving DecidableEq

def MissionEventPayload.isDepthExceeded : MissionEventPayload → Bool
  | .depthExceeded _ _ _ _ => true
  | .budgetExceeded _ _ | .decision _ _ _ => false

structure MissionEvent where
  kind : MissionEventKind
  payload : MissionEventPayload
  cost : BudgetDelta
  depth : ℕ
  deriving DecidableEq

/-- The event is a row the enforcer inserted when it paused the mission. -/
def MissionEvent.isHalt (event : MissionEvent) : Bool :=
  match event.payload with
  | .budgetExceeded _ _ => true
  | .depthExceeded _ _ _ _ | .decision _ _ _ => false

namespace BudgetEnforcer

def MAX_DELTA : ℕ := 2147483647

inductive DeltaField
  | tokens
  | cents
  deriving DecidableEq, Repr

/-- Why `validateDelta` throws. -/
inductive DeltaError
  | notAnObject
  | notANumber (field : DeltaField)
  | isNaN (field : DeltaField)
  | notFinite (field : DeltaField)
  | notAnInteger (field : DeltaField)
  | negative (field : DeltaField)
  | exceedsMaxInt32 (field : DeltaField)
  deriving DecidableEq, Repr

def validateField (field : DeltaField) : JsValue → Except DeltaError ℕ
  | .number .nan => .error (.isNaN field)
  | .number (.infinity _) => .error (.notFinite field)
  | .number (.finite value) =>
    if value.isInt = false then .error (.notAnInteger field)
    else if value < 0 then .error (.negative field)
    else if (MAX_DELTA : Rat) < value then .error (.exceedsMaxInt32 field)
    else .ok value.num.toNat
  | .undefined | .null | .boolean _ | .string _ | .object => .error (.notANumber field)

/-- `validateDelta`, with the delta it lets through; `none` is a delta that is no object. -/
def validateDelta : Option (JsValue × JsValue) → Except DeltaError BudgetDelta
  | none => .error .notAnObject
  | some (tokens, cents) => do
    let tokens ← validateField .tokens tokens
    let cents ← validateField .cents cents
    return ⟨tokens, cents⟩

structure BudgetEnforcerResult where
  allowed : Bool
  warn : Bool
  remaining : BudgetDelta
  deriving DecidableEq, Repr

/-- Eighty percent of the budget is spent. -/
def overWarnThreshold (spent budget : ℕ) : Bool := 0 < budget && 4 * budget ≤ 5 * spent

def exhausted (row : MissionRow) : Bool :=
  row.budgetTokens ≤ row.spentTokens || row.budgetUsdCents ≤ row.spentUsdCents

def computeResult (row : MissionRow) : BudgetEnforcerResult where
  allowed := row.status != .paused && !exhausted row
  warn := overWarnThreshold row.spentTokens row.budgetTokens ||
    overWarnThreshold row.spentUsdCents row.budgetUsdCents
  remaining := ⟨row.budgetTokens - row.spentTokens, row.budgetUsdCents - row.spentUsdCents⟩

def check (row : MissionRow) : BudgetEnforcerResult := computeResult row

/-- The row with a cost added. -/
def spend (row : MissionRow) (delta : BudgetDelta) : MissionRow :=
  { row with
    spentTokens := row.spentTokens + delta.tokens
    spentUsdCents := row.spentUsdCents + delta.cents }

/-- The addition pauses a mission that was not paused. -/
def transitionsToPaused (row : MissionRow) (delta : BudgetDelta) : Bool :=
  exhausted (spend row delta) && row.status != .paused

/-- The transaction of `increment`: the new row and the event it inserts. -/
def increment (row : MissionRow) (delta : BudgetDelta) : MissionRow × Option MissionEvent :=
  let spent := spend row delta
  if transitionsToPaused row delta then
    ({ spent with status := .paused },
      some ⟨.budgetExceeded, .budgetExceeded spent delta, delta, 0⟩)
  else (spent, none)

section

variable (row : MissionRow) (delta : BudgetDelta)

theorem check_allowed_iff :
    (check row).allowed = true ↔ row.status ≠ .paused ∧ exhausted row = false := by
  simp [check, computeResult]

@[simp] theorem increment_spentTokens :
    (increment row delta).1.spentTokens = row.spentTokens + delta.tokens := by
  unfold increment
  dsimp only
  split <;> rfl

@[simp] theorem increment_spentUsdCents :
    (increment row delta).1.spentUsdCents = row.spentUsdCents + delta.cents := by
  unfold increment
  dsimp only
  split <;> rfl

@[simp] theorem increment_budgetTokens :
    (increment row delta).1.budgetTokens = row.budgetTokens := by
  unfold increment
  dsimp only
  split <;> rfl

@[simp] theorem increment_budgetUsdCents :
    (increment row delta).1.budgetUsdCents = row.budgetUsdCents := by
  unfold increment
  dsimp only
  split <;> rfl

theorem increment_status : (increment row delta).1.status =
    if transitionsToPaused row delta then .paused else row.status := by
  unfold increment
  dsimp only
  split <;> rfl

/-- An exhausted budget stays exhausted when more is spent. -/
theorem exhausted_increment (hexhausted : exhausted row = true) :
    exhausted (increment row delta).1 = true := by
  simp only [exhausted, Bool.or_eq_true, decide_eq_true_eq, increment_budgetTokens,
    increment_spentTokens, increment_budgetUsdCents, increment_spentUsdCents] at hexhausted ⊢
  omega

/-- An accepted field is at most `MAX_DELTA`. -/
theorem validateField_le {field : DeltaField} {value : JsValue} {accepted : ℕ}
    (hvalue : validateField field value = .ok accepted) : accepted ≤ MAX_DELTA := by
  unfold validateField at hvalue
  split at hvalue
  case h_3 number =>
    split_ifs at hvalue with hfraction hsign hbound
    cases hvalue
    have hden : number.den = 1 := by
      simpa [Rat.isInt] using hfraction
    rw [Rat.lt_iff, Rat.num_natCast, Rat.den_natCast, hden] at hbound
    omega
  all_goals cases hvalue

theorem validateDelta_le {reported : Option (JsValue × JsValue)} {delta : BudgetDelta}
    (hdelta : validateDelta reported = .ok delta) :
    delta.tokens ≤ MAX_DELTA ∧ delta.cents ≤ MAX_DELTA := by
  unfold validateDelta at hdelta
  split at hdelta
  · cases hdelta
  · obtain ⟨tokens, htokens, hdelta⟩ := bind_eq_ok_iff.mp hdelta
    obtain ⟨cents, hcents, hdelta⟩ := bind_eq_ok_iff.mp hdelta
    cases hdelta
    exact ⟨validateField_le htokens, validateField_le hcents⟩

end

end BudgetEnforcer

end Flockctl.Missions
