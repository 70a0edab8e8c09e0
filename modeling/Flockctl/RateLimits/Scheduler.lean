import Flockctl.Sessions.AgentSession

/-!
# The rate-limit scheduler

A task or chat that hits a provider limit is parked: its row gets the status `rate_limited` and the
time to resume at, and a timer is armed for it. When the timer fires, the resume handler of the
kind is invoked. The handler of tasks queues the row at once. The handler of chats first loads its
module, then reads the row, marks it running and repeats the turn, which may end in another limit.
Timers and handlers do not survive the daemon; at boot the timers are armed from the rows.
-/

namespace Flockctl.RateLimits

open Collections Sessions

/-- The statuses of task and chat rows, as far as they are told apart here. -/
inductive RowStatus
  | rateLimited
  | queued
  | running
  | idle
  | other
  deriving DecidableEq, Repr

structure ParkableRow where
  status : RowStatus
  resumeAt : Option ℤ := none
  deriving DecidableEq, Repr

/-- An armed timer: when it may fire, and the `resumeAtMs` it was armed for. -/
structure Timer where
  due : ℤ
  resumeAtMs : ℤ
  deriving DecidableEq, Repr

/-- How far a chat's resume handler is: it loads its module, or it runs the turn. -/
inductive WakeupPhase
  | loading
  | resumed
  deriving DecidableEq, Repr

/-- An invocation of a resume handler: when, and what the row said at that time. -/
structure Invocation where
  ref : AgentRef
  time : ℤ
  resumeAt : Option ℤ

def MIN_DELAY_MS : ℤ := 50

def MAX_TIMER_MS : ℤ := 24 * 24 * 60 * 60 * 1000

/-- The scheduler with the rows it is about. `cancelled` are the rows a cancel was issued for since
they were parked last; `invocations` records the invocations of resume handlers. -/
structure RateLimitScheduler where
  now : ℤ
  rows : JsMap AgentRef ParkableRow
  timers : JsMap AgentRef Timer := JsMap.empty
  inflightWakeups : JsMap AgentRef WakeupPhase := JsMap.empty
  cancelled : List AgentRef := []
  invocations : List Invocation := []

/-- How the first part of a chat's resume handler ends. -/
inductive ChatResume
  | noUserMessage
  | runs
  | throws
  deriving DecidableEq, Repr

/-- How the repeated turn of a chat ends. -/
inductive ChatTurn
  | idle
  | limited (resumeAtMs : ℤ)
  | throws
  deriving DecidableEq, Repr

namespace RateLimitScheduler

variable (s : RateLimitScheduler)

/-- `schedule`: the delay is at least `MIN_DELAY_MS` and at most `MAX_TIMER_MS`. -/
def schedule (ref : AgentRef) (resumeAtMs : ℤ) : RateLimitScheduler :=
  let delay := min (max MIN_DELAY_MS (resumeAtMs - s.now)) MAX_TIMER_MS
  { s with timers := s.timers.set ref ⟨s.now + delay, resumeAtMs⟩ }

/-- `parkRateLimited` and `parkChatForRateLimit`. -/
def park (ref : AgentRef) (resumeAtMs : ℤ) : RateLimitScheduler :=
  { s with
    rows := s.rows.modify ref fun _ ↦ ⟨.rateLimited, some resumeAtMs⟩
    cancelled := s.cancelled.filter (· ≠ ref) }.schedule ref resumeAtMs

/-- `cancel`. -/
def cancel (ref : AgentRef) : RateLimitScheduler :=
  { s with timers := s.timers.delete ref, cancelled := ref :: s.cancelled }

/-- Arm a timer for a row `recoverFromDatabase` selects. -/
def recoverRow (entry : AgentRef × ParkableRow) : RateLimitScheduler :=
  match entry.2.status, entry.2.resumeAt with
  | .rateLimited, some resumeAt => s.schedule entry.1 resumeAt
  | _, _ => s

def recoverFromDatabase : RateLimitScheduler := s.rows.entries.foldl recoverRow s

/-- `resumeFromRateLimit`. -/
def resumeFromRateLimit (ref : AgentRef) : RateLimitScheduler :=
  { s with
    rows := s.rows.modify ref fun row ↦
      if row.status = .rateLimited then ⟨.queued, none⟩ else row }

/-- The callback of a due timer, and `fire`. The handler of tasks may throw before it changes the
row; the one of chats is left loading. -/
def fire (ref : AgentRef) (throws : Bool) : RateLimitScheduler :=
  match s.timers.get ref with
  | none => s
  | some timer =>
    if s.now < timer.due then s
    else
      let fired := { s with timers := s.timers.delete ref }
      if s.inflightWakeups.has ref then fired
      else
        let invoked :=
          { fired with
            invocations := ⟨ref, s.now, (s.rows.get ref).bind ParkableRow.resumeAt⟩ ::
              s.invocations }
        match ref with
        | .task _ => if throws then invoked else invoked.resumeFromRateLimit ref
        | .chat _ => { invoked with inflightWakeups := s.inflightWakeups.set ref .loading }

/-- `resumeChatAfterRateLimit` up to the run of the new session. -/
def beginResume (ref : AgentRef) (outcome : ChatResume) : RateLimitScheduler :=
  match s.inflightWakeups.get ref with
  | some .loading =>
    let ended := { s with inflightWakeups := s.inflightWakeups.delete ref }
    match s.rows.get ref with
    | none => ended
    | some row =>
      if row.status = .rateLimited then
        match outcome with
        | .noUserMessage => { ended with rows := s.rows.set ref ⟨.idle, none⟩ }
        | .runs =>
          { s with
            rows := s.rows.set ref ⟨.running, none⟩
            inflightWakeups := s.inflightWakeups.set ref .resumed }
        | .throws => ended
      else ended
  | _ => s

/-- The rest of `resumeChatAfterRateLimit`. -/
def endResume (ref : AgentRef) (outcome : ChatTurn) : RateLimitScheduler :=
  match s.inflightWakeups.get ref with
  | some .resumed =>
    let ended := { s with inflightWakeups := s.inflightWakeups.delete ref }
    match outcome with
    | .idle => { ended with rows := s.rows.modify ref fun row ↦ { row with status := .idle } }
    | .limited resumeAtMs => ended.park ref resumeAtMs
    | .throws => ended
  | _ => s

/-- The daemon ends, with its timers and handlers, and boots: `resetStaleTasks` queues the running
tasks, and `sweepOrphanedRunningChats` makes the running chats idle. -/
def resetStaleRows : RateLimitScheduler :=
  { s with
    rows := s.rows.mapWithKey fun ref row ↦
      if row.status = RowStatus.running then
        { row with
          status := match ref with
            | .task _ => .queued
            | .chat _ => .idle }
      else row
    timers := JsMap.empty
    inflightWakeups := JsMap.empty }

def restart : RateLimitScheduler := s.resetStaleRows.recoverFromDatabase

/-- Any other write of a row, which never parks it. -/
def write (ref : AgentRef) (status : RowStatus) (clears : Bool) : RateLimitScheduler :=
  if status = .rateLimited then s
  else
    { s with
      rows := s.rows.set ref
        ⟨status, if clears then none else (s.rows.get ref).bind ParkableRow.resumeAt⟩ }

end RateLimitScheduler

/-- What happens to parked rows and their timers. -/
inductive RateLimitEvent
  | advance (elapsed : ℕ)
  | park (ref : AgentRef) (resumeAtMs : ℤ)
  | cancel (ref : AgentRef)
  | fire (ref : AgentRef) (throws : Bool)
  | beginResume (ref : AgentRef) (outcome : ChatResume)
  | endResume (ref : AgentRef) (outcome : ChatTurn)
  | restart
  | write (ref : AgentRef) (status : RowStatus) (clears : Bool)
  | delete (ref : AgentRef)

def RateLimitScheduler.step (s : RateLimitScheduler) : RateLimitEvent → RateLimitScheduler
  | .advance elapsed => { s with now := s.now + elapsed }
  | .park ref resumeAtMs => s.park ref resumeAtMs
  | .cancel ref => s.cancel ref
  | .fire ref throws => s.fire ref throws
  | .beginResume ref outcome => s.beginResume ref outcome
  | .endResume ref outcome => s.endResume ref outcome
  | .restart => s.restart
  | .write ref status clears => s.write ref status clears
  | .delete ref => { s with rows := s.rows.delete ref }

end Flockctl.RateLimits
