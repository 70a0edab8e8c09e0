import Flockctl.Collections.JsMap

/-!
# Approving and dismissing proposals

The two handlers read the proposal and look for an earlier decision of their own kind, then wait
for the body of the request. What they do after that happens at once: approving records the
decision, creates the plan entity and completes the record; dismissing records the decision.
-/

namespace Flockctl.Missions

open Collections

/-- A proposal is the `remediation_proposed` event of a mission. -/
structure ProposalRef where
  missionId : String
  proposalId : String
  deriving DecidableEq, Repr

inductive TargetType
  | milestone
  | slice
  | task
  deriving DecidableEq, Repr

/-- What the handlers use of a proposal: the target type `reparseStoredProposal` finds, if the
payload passes, and the depth. -/
structure ProposalRow where
  reparsed : Option TargetType
  depth : ℕ

inductive DecisionKind
  | remediationApproved
  | remediationDismissed
  deriving DecidableEq, Repr

structure CreatedEntity where
  entityKind : TargetType
  targetId : String
  parentSliceSlug : Option String := none
  parentMilestoneSlug : Option String := none
  deriving DecidableEq, Repr

/-- The payload of a decision event next to the proposal it is about. -/
inductive DecisionPayload
  | pending (targetType : TargetType)
  | materialised (targetType : TargetType) (entity : CreatedEntity)
  | dismissed (reason : Option String)
  deriving DecidableEq, Repr

structure DecisionEvent where
  id : ℕ
  ref : ProposalRef
  kind : DecisionKind
  payload : DecisionPayload
  depth : ℕ

/-- A request that has passed the first part of its handler. `arrivedAfter` records the decision
that was there when it arrived. -/
structure ProposalRequest where
  kind : DecisionKind
  ref : ProposalRef
  arrivedAfter : Option ℕ

inductive Answer
  | notFound
  | invalid
  | failed
  | decided (decisionId : ℕ) (idempotent : Bool)
  deriving DecidableEq, Repr

structure Response where
  request : ProposalRequest
  answer : Answer

/-- What a request meets when its body is there: the parsed body of a dismissal, whether the project
has a path, and what `createEntityFromProposal` creates, unless it throws. -/
structure Circumstances where
  body : Option (Option String)
  projectPath : Bool
  created : Option CreatedEntity

/-- The proposals with the decision events (oldest first), the requests that wait for their body,
and what has been created and answered. -/
structure ProposalBoard where
  proposals : JsMap ProposalRef ProposalRow
  events : List DecisionEvent := []
  nextDecision : ℕ := 0
  requests : JsMap ℕ ProposalRequest := JsMap.empty
  created : List (ProposalRef × CreatedEntity) := []
  responses : List Response := []

namespace ProposalBoard

variable (board : ProposalBoard)

/-- The decisions on a proposal. -/
def decisions (ref : ProposalRef) : List DecisionEvent := board.events.filter (·.ref = ref)

/-- The plan entities created for a proposal. -/
def entities (ref : ProposalRef) : List (ProposalRef × CreatedEntity) :=
  board.created.filter (·.1 = ref)

def findExistingDecisionId (ref : ProposalRef) (kind : DecisionKind) : Option ℕ :=
  ((board.decisions ref).find? (·.kind = kind)).map DecisionEvent.id

def respond (request : ProposalRequest) (answer : Answer) : ProposalBoard :=
  { board with responses := ⟨request, answer⟩ :: board.responses }

/-- `writeDecisionEvent` under a new id. -/
def writeDecisionEvent (ref : ProposalRef) (kind : DecisionKind) (payload : DecisionPayload)
    (depth : ℕ) : ProposalBoard :=
  { board with
    events := board.events ++ [⟨board.nextDecision, ref, kind, payload, depth⟩]
    nextDecision := board.nextDecision + 1 }

/-- `UPDATE mission_events SET payload = ? WHERE id = ?`. -/
def finalise (decisionId : ℕ) (payload : DecisionPayload) : ProposalBoard :=
  { board with
    events := board.events.map fun event ↦
      if event.id = decisionId then { event with payload := payload } else event }

/-- Either handler up to the wait for the body. -/
def arrive (number : ℕ) (kind : DecisionKind) (ref : ProposalRef) : ProposalBoard :=
  let request : ProposalRequest := ⟨kind, ref, (board.decisions ref).head?.map DecisionEvent.id⟩
  if board.proposals.has ref then
    match board.findExistingDecisionId ref kind with
    | some decisionId => board.respond request (.decided decisionId true)
    | none => { board with requests := board.requests.set number request }
  else board.respond request .notFound

/-- The rest of the approve handler. -/
def approve (request : ProposalRequest) (row : ProposalRow) (met : Circumstances) :
    ProposalBoard :=
  match row.reparsed with
  | none => board.respond request .invalid
  | some targetType =>
    if met.projectPath then
      let recorded := board.writeDecisionEvent request.ref .remediationApproved
        (.pending targetType) row.depth
      match met.created with
      | none => recorded.respond request .failed
      | some entity =>
        ({ recorded with created := (request.ref, entity) :: recorded.created }.finalise
          board.nextDecision (.materialised targetType entity)).respond request
            (.decided board.nextDecision false)
    else board.respond request .invalid

/-- The rest of the dismiss handler. -/
def dismiss (request : ProposalRequest) (row : ProposalRow) (met : Circumstances) :
    ProposalBoard :=
  match met.body with
  | none => board.respond request .invalid
  | some reason =>
    (board.writeDecisionEvent request.ref .remediationDismissed (.dismissed reason)
      row.depth).respond request (.decided board.nextDecision false)

/-- The body of a request has arrived. -/
def proceed (number : ℕ) (met : Circumstances) : ProposalBoard :=
  match board.requests.get number with
  | none => board
  | some request =>
    let taken := { board with requests := board.requests.delete number }
    match board.proposals.get request.ref with
    | none => taken
    | some row =>
      match request.kind with
      | .remediationApproved => taken.approve request row met
      | .remediationDismissed => taken.dismiss request row met

end ProposalBoard

inductive ProposalEvent
  | propose (ref : ProposalRef) (row : ProposalRow)
  | arrive (number : ℕ) (kind : DecisionKind) (ref : ProposalRef)
  | proceed (number : ℕ) (met : Circumstances)
  /-- the daemon restarts, and its requests are gone -/
  | restart

def ProposalBoard.step (board : ProposalBoard) : ProposalEvent → ProposalBoard
  | .propose ref row =>
    if board.proposals.has ref then board
    else { board with proposals := board.proposals.set ref row }
  | .arrive number kind ref => board.arrive number kind ref
  | .proceed number met => board.proceed number met
  | .restart => { board with requests := JsMap.empty }

end Flockctl.Missions
