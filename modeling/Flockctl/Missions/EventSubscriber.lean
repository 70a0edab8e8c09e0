import Flockctl.Missions.BudgetEnforcer

/-!
# The subscriber to task events

Terminal events of tasks become triggers of their missions. A mission that is being evaluated keeps
one trigger pending, the latest one, and the `finally` callback of the evaluation starts it. The
listener can be detached and installed again while evaluations are in flight.
-/

namespace Flockctl.Missions

open Collections

structure TaskTerminalEvent where
  taskId : ℕ
  status : TerminalStatus
  error : Option String := none
  depth : Option JsNumber := none

def buildTrigger (event : TaskTerminalEvent) : MissionTrigger where
  kind := "task_observed"
  payload := some
    { taskId := some event.taskId
      status := some event.status
      taskOutput := event.error
      depth := (event.depth.map JsValue.number).getD .undefined }

section

variable {Trigger : Type}

/-- The entry a mission has in the map while one of its triggers is evaluated. -/
structure MissionQueueState (Trigger : Type) where
  pending : Option Trigger := none
  deriving DecidableEq

/-- `enqueue` on the entry of the mission: the new entry, and the trigger that starts at once. -/
def enqueueTrigger (trigger : Trigger) :
    Option (MissionQueueState Trigger) → MissionQueueState Trigger × Option Trigger
  | none => ({ pending := none }, some trigger)
  | some _ => ({ pending := some trigger }, none)

/-- The `finally` callback of `runOne` on the entry it finds: the new entry, and the trigger that
starts next. -/
def handOff : Option (MissionQueueState Trigger) →
    Option (MissionQueueState Trigger) × Option Trigger
  | none => (none, none)
  | some ⟨none⟩ => (none, none)
  | some ⟨some next⟩ => (some { pending := none }, some next)

end

/-- A trigger with the listener that enqueued it and a number of its own. -/
structure QueuedTrigger where
  serial : ℕ
  listener : ℕ
  trigger : MissionTrigger
  deriving DecidableEq

structure Evaluation where
  missionId : String
  queued : QueuedTrigger

/-- The last trigger enqueued for a mission, and whether it has been evaluated since. -/
structure LatestTrigger where
  queued : QueuedTrigger
  started : Bool
  deriving DecidableEq

/-- The closures `subscribeMissionEvents` returns: of the call that installed the listener, or of a
call that found it installed. -/
inductive Unsubscribe
  | own (listener : ℕ)
  | found (listener : ℕ)

/-- The listeners attached to the emitter, `installed`, the closures returned so far, `queues` and
the evaluations in flight; `latest` records what has been enqueued. -/
structure MissionSubscriber where
  listeners : List ℕ := []
  installed : Option ℕ := none
  nextListener : ℕ := 0
  returned : List Unsubscribe := []
  queues : JsMap String (MissionQueueState QueuedTrigger) := JsMap.empty
  running : JsMap ℕ Evaluation := JsMap.empty
  nextRun : ℕ := 0
  nextSerial : ℕ := 0
  latest : JsMap String LatestTrigger := JsMap.empty

namespace MissionSubscriber

variable (s : MissionSubscriber)

/-- `runOne` up to its wait. -/
def runOne (missionId : String) (queued : QueuedTrigger) : MissionSubscriber :=
  { s with
    running := s.running.set s.nextRun ⟨missionId, queued⟩
    nextRun := s.nextRun + 1
    latest := s.latest.modify missionId fun last ↦
      if last.queued.serial = queued.serial then { last with started := true } else last }

def enqueue (listener : ℕ) (missionId : String) (trigger : MissionTrigger) : MissionSubscriber :=
  let queued : QueuedTrigger := ⟨s.nextSerial, listener, trigger⟩
  let entry := enqueueTrigger queued (s.queues.get missionId)
  let stored := { s with
    queues := s.queues.set missionId entry.1
    nextSerial := s.nextSerial + 1
    latest := s.latest.set missionId ⟨queued, false⟩ }
  match entry.2 with
  | some starting => stored.runOne missionId starting
  | none => stored

/-- The evaluation has completed or failed, and its `finally` callback runs. -/
def finish (run : ℕ) : MissionSubscriber :=
  match s.running.get run with
  | none => s
  | some evaluation =>
    let ended := { s with running := s.running.delete run }
    match handOff (s.queues.get evaluation.missionId) with
    | (none, _) => { ended with queues := s.queues.delete evaluation.missionId }
    | (some entry, none) => { ended with queues := s.queues.set evaluation.missionId entry }
    | (some entry, some next) =>
      { ended with queues := s.queues.set evaluation.missionId entry }.runOne
        evaluation.missionId next

/-- Every attached listener handles the event of a task with the mission it resolves to and whether
that mission is active. -/
def emit (event : TaskTerminalEvent) (resolved : Option String) (active : Bool) :
    MissionSubscriber :=
  match resolved with
  | none => s
  | some missionId =>
    if active then
      s.listeners.foldl
        (fun subscriber listener ↦ subscriber.enqueue listener missionId (buildTrigger event)) s
    else s

def subscribeMissionEvents : MissionSubscriber :=
  match s.installed with
  | some current => { s with returned := s.returned ++ [.found current] }
  | none =>
    { s with
      listeners := s.listeners ++ [s.nextListener]
      installed := some s.nextListener
      nextListener := s.nextListener + 1
      returned := s.returned ++ [.own s.nextListener] }

/-- `taskTerminalEvents.off(listener); installed = null`. -/
def detach (listener : ℕ) : MissionSubscriber :=
  { s with listeners := s.listeners.filter (· ≠ listener), installed := none }

def unsubscribe : Unsubscribe → MissionSubscriber
  | .own listener =>
    if s.installed = some listener then { s.detach listener with queues := JsMap.empty }
    else { s with queues := JsMap.empty }
  | .found listener => { s.detach listener with queues := JsMap.empty }

end MissionSubscriber

inductive SubscriberEvent
  | emit (event : TaskTerminalEvent) (resolved : Option String) (active : Bool)
  | finish (run : ℕ)
  | subscribe
  /-- the closure returned by the call of that number is called -/
  | unsubscribe (number : ℕ)

def MissionSubscriber.step (s : MissionSubscriber) : SubscriberEvent → MissionSubscriber
  | .emit event resolved active => s.emit event resolved active
  | .finish run => s.finish run
  | .subscribe => s.subscribeMissionEvents
  | .unsubscribe number =>
    match s.returned[number]? with
    | none => s
    | some closure => s.unsubscribe closure

end Flockctl.Missions
