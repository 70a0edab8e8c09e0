import Flockctl.Missions.EventSubscriber

/-!
# One guarded step of the supervisor

`guardedEvaluate` runs in two segments around the evaluator: the budget check, the depth gate and
the start of the evaluator; then, when the evaluator has returned, the addition of its cost and the
decision event. The state is the row of one mission with its timeline and the evaluators that run.
-/

namespace Flockctl.Missions

open Collections

namespace MaxDepthGuard

def MAX_ALLOWED_DEPTH : ℕ := 2

def coerceDepth : JsValue → ℕ
  | .number (.finite value) => if value < 0 then 0 else value.floor.toNat
  | .number .nan | .number (.infinity _) => 0
  | .undefined | .null | .boolean _ | .string _ | .object => 0

structure DepthCheckResult where
  allowed : Bool
  depth : ℕ
  deriving DecidableEq, Repr

/-- The depth a trigger is taken to have. -/
def triggerDepth (trigger : MissionTrigger) : ℕ :=
  if trigger.kind = "remediation" then
    coerceDepth ((trigger.payload.map TriggerPayload.depth).getD .undefined)
  else 0

def check (trigger : MissionTrigger) : DepthCheckResult :=
  ⟨triggerDepth trigger ≤ MAX_ALLOWED_DEPTH, triggerDepth trigger⟩

/-- The event of a denial, with the cost the composer writes it with. -/
def depthExceeded (trigger : MissionTrigger) : MissionEvent :=
  ⟨.depthExceeded, .depthExceeded trigger.payload (triggerDepth trigger) MAX_ALLOWED_DEPTH
    trigger.kind, ⟨0, 0⟩, triggerDepth trigger⟩

end MaxDepthGuard

inductive GuardDenyReason
  | paused
  | budgetExhausted
  | depthExceeded
  deriving DecidableEq, Repr

/-- The context of an evaluator that runs. -/
structure EvaluatorContext where
  trigger : MissionTrigger
  depth : ℕ
  budget : BudgetEnforcer.BudgetEnforcerResult

/-- What an evaluator returns; the cost is not checked yet. -/
structure EvaluatorResult where
  proposal : Option String := none
  cost : Option (JsValue × JsValue)
  eventKind : Option MissionEventKind := none
  eventPayload : Option String := none

/-- `classifyBudgetDenial`. -/
def classifyBudgetDenial (row : MissionRow) : GuardDenyReason :=
  if row.status = .paused then .paused else .budgetExhausted

/-- The first segment: a denial with its depth, or the context the evaluator starts with. -/
def guardGates (row : MissionRow) (trigger : MissionTrigger) :
    Except (GuardDenyReason × ℕ) EvaluatorContext :=
  let preBudget := BudgetEnforcer.check row
  if preBudget.allowed then
    let depthResult := MaxDepthGuard.check trigger
    if depthResult.allowed then .ok ⟨trigger, depthResult.depth, preBudget⟩
    else .error (.depthExceeded, depthResult.depth)
  else .error (classifyBudgetDenial row, 0)

def decisionKind (result : EvaluatorResult) : MissionEventKind :=
  result.eventKind.getD (if result.proposal.isSome then .remediationProposed else .noAction)

/-- The decision event of an evaluation. -/
def decisionEvent (context : EvaluatorContext) (result : EvaluatorResult) (cost : BudgetDelta) :
    MissionEvent :=
  ⟨decisionKind result, .decision result.eventPayload context.trigger.kind result.proposal, cost,
    context.depth⟩

/-- A mission with its timeline (oldest first) and the evaluators that run. -/
structure MissionLedger where
  row : MissionRow
  events : List MissionEvent := []
  calls : JsMap ℕ EvaluatorContext := JsMap.empty
  nextCall : ℕ := 0

/-- The fields of a PATCH that the budget and the gates read. -/
structure MissionPatch where
  status : Option MissionStatus := none
  budgetTokens : Option ℕ := none
  budgetUsdCents : Option ℕ := none

def MissionPatch.apply (patch : MissionPatch) (row : MissionRow) : MissionRow :=
  { row with
    status := patch.status.getD row.status
    budgetTokens := patch.budgetTokens.getD row.budgetTokens
    budgetUsdCents := patch.budgetUsdCents.getD row.budgetUsdCents }

namespace MissionLedger

variable (ledger : MissionLedger)

/-- The first segment of `guardedEvaluate`. -/
def evaluate (trigger : MissionTrigger) : MissionLedger :=
  match guardGates ledger.row trigger with
  | .ok context =>
    { ledger with
      calls := ledger.calls.set ledger.nextCall context
      nextCall := ledger.nextCall + 1 }
  | .error (.depthExceeded, _) =>
    { ledger with events := ledger.events ++ [MaxDepthGuard.depthExceeded trigger] }
  | .error (.paused, _) | .error (.budgetExhausted, _) => ledger

/-- The evaluator has thrown, or its cost was refused: nothing is recorded. -/
def abandon (number : ℕ) : MissionLedger :=
  { ledger with calls := ledger.calls.delete number }

/-- The addition of an accepted cost, and the decision event after what the addition inserts. -/
def charge (context : EvaluatorContext) (result : EvaluatorResult) (cost : BudgetDelta) :
    MissionLedger :=
  let increment := BudgetEnforcer.increment ledger.row cost
  { ledger with
    row := increment.1
    events := ledger.events ++ increment.2.toList ++ [decisionEvent context result cost] }

/-- The second segment of `guardedEvaluate`. -/
def settle (number : ℕ) (result : EvaluatorResult) : MissionLedger :=
  match ledger.calls.get number with
  | none => ledger
  | some context =>
    match BudgetEnforcer.validateDelta result.cost with
    | .error _ => ledger.abandon number
    | .ok cost => (ledger.abandon number).charge context result cost

/-- `UPDATE missions SET status = 'completed' WHERE id = ? AND status = 'active'`. -/
def completeMission : MissionLedger :=
  if ledger.row.status = .active then { ledger with row := { ledger.row with status := .completed } }
  else ledger

end MissionLedger

inductive LedgerEvent
  | evaluate (trigger : MissionTrigger)
  | settle (number : ℕ) (result : EvaluatorResult)
  | throws (number : ℕ)
  | completeMission
  | patch (patch : MissionPatch)

def MissionLedger.step (ledger : MissionLedger) : LedgerEvent → MissionLedger
  | .evaluate trigger => ledger.evaluate trigger
  | .settle number result => ledger.settle number result
  | .throws number => ledger.abandon number
  | .completeMission => ledger.completeMission
  | .patch patch => { ledger with row := patch.apply ledger.row }

end Flockctl.Missions

/-!
# The supervisor of a mission

`SupervisorService.evaluate` runs one guarded step and completes the mission in a statement of its
own after it. Its triggers are the terminal events of tasks, through the queue of the subscriber,
and the heartbeat. The operator may patch the row at any point between.
-/

namespace Flockctl.Missions

open Collections

/-- What `parseSupervisorReply` makes of the text of a reply, with the payload of its event. -/
inductive SupervisorOutput
  | parseError (payload : String)
  | proposal (payload proposal : String)
  | noAction (payload : String)
  | objectiveMet (payload : String)
  deriving DecidableEq

structure SupervisorLLMReply where
  output : SupervisorOutput
  cost : Option (JsValue × JsValue)

/-- The evaluator the supervisor passes to `guardedEvaluate`. -/
def supervisorEvaluator (trigger : MissionTrigger) (reply : SupervisorLLMReply) :
    EvaluatorResult :=
  if trigger.kind = "heartbeat" then
    { cost := some (.number (.finite 0), .number (.finite 0))
      eventKind := some .heartbeat
      eventPayload := some "periodic heartbeat" }
  else
    match reply.output with
    | .parseError payload =>
      { cost := reply.cost, eventKind := some .noAction, eventPayload := some payload }
    | .proposal payload proposal =>
      { proposal := some proposal
        cost := reply.cost
        eventKind := some .remediationProposed
        eventPayload := some payload }
    | .objectiveMet payload =>
      { cost := reply.cost, eventKind := some .objectiveMet, eventPayload := some payload }
    | .noAction payload =>
      { cost := reply.cost, eventKind := some .noAction, eventPayload := some payload }

/-- Where an evaluation is: its evaluator runs; `guardedEvaluate` has settled, with an
`objective_met` event or without, and has found the mission active or not; `evaluate` has
settled. -/
inductive EvaluationStage
  | evaluating (call : ℕ)
  | settled (objectiveMet wasActive : Bool)
  | finished
  deriving DecidableEq

/-- An evaluation, of the subscriber or of a heartbeat. -/
structure SupervisorEvaluation where
  subscribed : Bool
  stage : EvaluationStage
  deriving DecidableEq

/-- The ledger of a mission, its entry in the subscriber's map and its evaluations. -/
structure Supervision where
  ledger : MissionLedger
  queue : Option (MissionQueueState MissionTrigger) := none
  evaluations : JsMap ℕ SupervisorEvaluation := JsMap.empty
  nextEvaluation : ℕ := 0

namespace Supervision

variable (s : Supervision)

def status : MissionStatus := s.ledger.row.status

/-- `SupervisorService.evaluate` up to its first wait. -/
def evaluate (subscribed : Bool) (trigger : MissionTrigger) : Supervision :=
  let stage : EvaluationStage :=
    match guardGates s.ledger.row trigger with
    | .ok _ => .evaluating s.ledger.nextCall
    | .error _ => .settled false false
  { s with
    ledger := s.ledger.evaluate trigger
    evaluations := s.evaluations.set s.nextEvaluation ⟨subscribed, stage⟩
    nextEvaluation := s.nextEvaluation + 1 }

/-- The subscriber's listener. -/
def observe (event : TaskTerminalEvent) : Supervision :=
  if s.status = .active then
    let entry := enqueueTrigger (buildTrigger event) s.queue
    match entry.2 with
    | some trigger => { s with queue := some entry.1 }.evaluate true trigger
    | none => { s with queue := some entry.1 }
  else s

/-- A tick of the mission's heartbeat. -/
def heartbeat : Supervision :=
  if s.status = .active then s.evaluate false ⟨"heartbeat", none⟩ else s

/-- The evaluator has returned, and the second segment of `guardedEvaluate` runs. -/
def settle (number : ℕ) (reply : SupervisorLLMReply) : Supervision :=
  match s.evaluations.get number with
  | some ⟨subscribed, .evaluating call⟩ =>
    match s.ledger.calls.get call with
    | none => s
    | some context =>
      let result := supervisorEvaluator context.trigger reply
      let objectiveMet := (BudgetEnforcer.validateDelta result.cost).isOk &&
        decisionKind result == .objectiveMet
      { s with
        ledger := s.ledger.settle call result
        evaluations := s.evaluations.set number
          ⟨subscribed, .settled objectiveMet (s.status = .active)⟩ }
  | some ⟨_, .settled _ _⟩ | some ⟨_, .finished⟩ | none => s

/-- The evaluator has thrown. -/
def throws (number : ℕ) : Supervision :=
  match s.evaluations.get number with
  | some ⟨subscribed, .evaluating call⟩ =>
    { s with
      ledger := s.ledger.abandon call
      evaluations := s.evaluations.set number ⟨subscribed, .settled false false⟩ }
  | some ⟨_, .settled _ _⟩ | some ⟨_, .finished⟩ | none => s

/-- What `evaluate` does after `guardedEvaluate`. -/
def resume (number : ℕ) : Supervision :=
  match s.evaluations.get number with
  | some ⟨subscribed, .settled objectiveMet _⟩ =>
    { s with
      ledger := if objectiveMet then s.ledger.completeMission else s.ledger
      evaluations := s.evaluations.set number ⟨subscribed, .finished⟩ }
  | some ⟨_, .evaluating _⟩ | some ⟨_, .finished⟩ | none => s

/-- The `finally` callback of the subscriber, after an evaluation of its own. -/
def finish (number : ℕ) : Supervision :=
  match s.evaluations.get number with
  | some ⟨subscribed, .finished⟩ =>
    let ended := { s with evaluations := s.evaluations.delete number }
    if subscribed then
      let entry := handOff s.queue
      match entry.2 with
      | some next => { ended with queue := entry.1 }.evaluate true next
      | none => { ended with queue := entry.1 }
    else ended
  | some ⟨_, .evaluating _⟩ | some ⟨_, .settled _ _⟩ | none => s

end Supervision

inductive SupervisorEvent
  | observe (event : TaskTerminalEvent)
  | heartbeat
  | settle (number : ℕ) (reply : SupervisorLLMReply)
  | throws (number : ℕ)
  | resume (number : ℕ)
  | finish (number : ℕ)
  | patch (patch : MissionPatch)

def Supervision.step (s : Supervision) : SupervisorEvent → Supervision
  | .observe event => s.observe event
  | .heartbeat => s.heartbeat
  | .settle number reply => s.settle number reply
  | .throws number => s.throws number
  | .resume number => s.resume number
  | .finish number => s.finish number
  | .patch patch => { s with ledger := s.ledger.step (.patch patch) }

end Flockctl.Missions
