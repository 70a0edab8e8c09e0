import Flockctl.Collections.JsMap
import Flockctl.Collections.JsParse
import Mathlib.Data.List.Sort

/-!
# Scheduled wakeups

The rows of `scheduled_wakeups` with the statements that change them, and the tick of the worker.
A tick sweeps what is overdue, takes one snapshot of what is due, and fires the rows of the snapshot
one after the other, waiting for each callback. Times are in seconds.
-/

namespace Flockctl.Wakeups

open Collections

inductive WakeupStatus
  | pending
  | fired
  | cancelled
  | missed
  deriving DecidableEq, Repr

structure WakeupRow where
  chatId : Option ℕ
  taskId : Option ℕ
  claudeSessionId : String
  fireAt : ℕ
  prompt : String
  reason : Option String
  status : WakeupStatus := .pending
  firedAt : Option ℕ := none
  missedAt : Option ℕ := none
  cancelledAt : Option ℕ := none
  deriving DecidableEq, Repr

structure RecordWakeupInput where
  chatId : Option ℕ := none
  taskId : Option ℕ := none
  claudeSessionId : String
  delaySeconds : JsNumber
  prompt : String
  reason : Option String := none

/-- Why `record` throws. -/
inductive RecordError
  | noScope
  | bothScopes
  | delaySeconds
  | prompt
  | claudeSessionId
  deriving DecidableEq, Repr

def WAKEUP_FIRE_GRACE_SECONDS : ℕ := 60

/-- `Math.floor` of a delay that is finite and not negative. -/
def floorDelay : JsNumber → Option ℕ
  | .finite value => if value < 0 then none else some value.floor.toNat
  | .nan | .infinity _ => none

/-- The row `record` inserts. -/
def newRow (now : ℕ) (input : RecordWakeupInput) : Except RecordError WakeupRow :=
  if input.chatId.isNone && input.taskId.isNone then .error .noScope
  else if input.chatId.isSome && input.taskId.isSome then .error .bothScopes
  else
    match floorDelay input.delaySeconds with
    | none => .error .delaySeconds
    | some delay =>
      if input.prompt.isEmpty then .error .prompt
      else if input.claudeSessionId.isEmpty then .error .claudeSessionId
      else .ok
        { chatId := input.chatId
          taskId := input.taskId
          claudeSessionId := input.claudeSessionId
          fireAt := now + delay
          prompt := input.prompt
          reason := input.reason }

/-- The columns a statement sets when it moves a row out of `pending`. -/
def WakeupRow.leave (row : WakeupRow) (status : WakeupStatus) (asOf : ℕ) : WakeupRow :=
  match status with
  | .pending => row
  | .fired => { row with status := .fired, firedAt := some asOf }
  | .cancelled => { row with status := .cancelled, cancelledAt := some asOf }
  | .missed => { row with status := .missed, missedAt := some asOf }

/-- A start of the fire callback: its row, when that row was to fire, the time, and the status the
row has by then. -/
structure FireCall where
  id : ℕ
  fireAt : ℕ
  time : ℕ
  status : Option WakeupStatus
  deriving DecidableEq

/-- A call of `onFired`: its row, and the status the row had before `markFired`. -/
structure FiredCall where
  id : ℕ
  before : WakeupStatus
  deriving DecidableEq

/-- A tick that waits: the row whose callback runs, and the rows of the snapshot after it. -/
structure WakeupTick where
  current : ℕ
  rest : List (ℕ × WakeupRow)

/-- The rows by id, the tick that runs while `ticking` is set, and a record of the rows that left
`pending`, of the callbacks started and completed, and of the calls of `onFired`. -/
structure WakeupWorker where
  now : ℕ
  rows : JsMap ℕ WakeupRow := JsMap.empty
  nextId : ℕ := 0
  ticking : Option WakeupTick := none
  departures : List ℕ := []
  fireCalls : List FireCall := []
  completions : List ℕ := []
  firedCalls : List FiredCall := []

namespace WakeupWorker

variable (s : WakeupWorker)

def record (input : RecordWakeupInput) : WakeupWorker :=
  match newRow s.now input with
  | .error _ => s
  | .ok row => { s with rows := s.rows.set s.nextId row, nextId := s.nextId + 1 }

/-- `UPDATE scheduled_wakeups SET status = ? WHERE id = ? AND status = 'pending'`. -/
def transition (status : WakeupStatus) (id : ℕ) : WakeupWorker :=
  match s.rows.get id with
  | none => s
  | some row =>
    if row.status = .pending then
      { s with rows := s.rows.set id (row.leave status s.now), departures := id :: s.departures }
    else s

def markFired (id : ℕ) : WakeupWorker := s.transition .fired id

def cancel (id : ℕ) : WakeupWorker := s.transition .cancelled id

/-- `sweepSelect`. -/
def overdue : List ℕ :=
  (s.rows.entries.filter fun entry ↦
    entry.2.status = .pending && entry.2.fireAt + WAKEUP_FIRE_GRACE_SECONDS < s.now).map Prod.fst

def sweepMissed : WakeupWorker := s.overdue.foldl (fun worker id ↦ worker.transition .missed id) s

def findDuePending : List (ℕ × WakeupRow) :=
  (s.rows.entries.filter fun entry ↦
    entry.2.status = .pending && entry.2.fireAt ≤ s.now).insertionSort
      fun first second ↦ first.2.fireAt ≤ second.2.fireAt

/-- The loop over the snapshot up to the next wait. -/
def fireNext : List (ℕ × WakeupRow) → WakeupWorker
  | [] => { s with ticking := none }
  | (id, row) :: rest =>
    { s with
      ticking := some ⟨id, rest⟩
      fireCalls := ⟨id, row.fireAt, s.now, (s.rows.get id).map WakeupRow.status⟩ :: s.fireCalls }

/-- `runWakeupTick` up to its first wait; `elapsed` seconds pass between its two clock reads. -/
def runWakeupTick (elapsed : ℕ) : WakeupWorker :=
  if s.ticking.isSome then s
  else
    let swept := s.sweepMissed
    let read := { swept with now := swept.now + elapsed }
    read.fireNext read.findDuePending

/-- The fire callback has completed. -/
def fireReturns : WakeupWorker :=
  match s.ticking with
  | none => s
  | some tick =>
    let fired := s.markFired tick.current
    { fired with
      completions := tick.current :: fired.completions
      firedCalls := ((s.rows.get tick.current).map fun (row : WakeupRow) ↦
        FiredCall.mk tick.current row.status).toList ++ fired.firedCalls }.fireNext tick.rest

/-- The fire callback has thrown. -/
def fireThrows : WakeupWorker :=
  match s.ticking with
  | none => s
  | some tick => s.fireNext tick.rest

end WakeupWorker

inductive WakeupEvent
  | record (input : RecordWakeupInput)
  | cancel (id : ℕ)
  /-- the operator marks the wakeup fired -/
  | fireNow (id : ℕ)
  /-- the chat or task of the wakeup is deleted -/
  | remove (id : ℕ)
  | advance (elapsed : ℕ)
  | runWakeupTick (elapsed : ℕ)
  | fireReturns
  | fireThrows

def WakeupWorker.step (s : WakeupWorker) : WakeupEvent → WakeupWorker
  | .record input => s.record input
  | .cancel id => s.cancel id
  | .fireNow id => s.markFired id
  | .remove id => { s with rows := s.rows.delete id }
  | .advance elapsed => { s with now := s.now + elapsed }
  | .runWakeupTick elapsed => s.runWakeupTick elapsed
  | .fireReturns => s.fireReturns
  | .fireThrows => s.fireThrows

end Flockctl.Wakeups
