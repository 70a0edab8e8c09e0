import Flockctl.Chats.Executor
import Flockctl.RateLimits.Scheduler

/-!
# Parked chats

The turns of the chats together with their rows and the rate-limit scheduler. A turn that hits a
limit parks its chat, and the wake-up repeats the latest user message of the chat in a session of
its own. The endpoints neither read nor write the status of the chat, so a parked chat takes
further messages.
-/

namespace Flockctl.Chats

open Collections RateLimits Sessions

/-- A user message: when it was sent, in seconds, and whether a turn was completed after it. -/
structure UserMessage where
  createdAt : ℤ
  answered : Bool := false
  deriving DecidableEq, Repr

/-- A wake-up that went on to repeat the turn of a parked chat, and whether a cancel was issued for
that parking. -/
structure Wakeup where
  chat : ChatId
  cancelled : Bool
  deriving DecidableEq, Repr

/-- A session a wake-up has started: whether no other session of the chat was running, and whether a
turn had been completed after the message it repeats. -/
structure Replay where
  chat : ChatId
  alone : Bool
  answered : Bool
  deriving DecidableEq, Repr

/-- How the run of a message turn ends. -/
inductive TurnOutcome
  | completed
  | limited (resumeAtMs : ℤ)
  | failed
  deriving DecidableEq, Repr

/-- The chats of the daemon. `repeats` is the message a resumed turn repeats, by its place among the
user messages of the chat. -/
structure ParkingDaemon where
  limits : RateLimitScheduler := { now := 0, rows := JsMap.empty }
  turns : ChatDaemon := {}
  messages : JsMap ChatId (List UserMessage) := JsMap.empty
  repeats : JsMap TurnId ℕ := JsMap.empty
  wakeups : List Wakeup := []
  replays : List Replay := []

namespace ParkingDaemon

variable (s : ParkingDaemon)

def userMessages (chat : ChatId) : List UserMessage := (s.messages.get chat).getD []

/-- A new chat. -/
def create (chat : ChatId) : ParkingDaemon :=
  if s.limits.rows.has (.chat chat) then s
  else { s with limits := s.limits.write (.chat chat) .idle true }

/-- A message request up to its claim; `datetime('now')` counts seconds. -/
def send (id : TurnId) (chat : ChatId) (streamed : Bool) : ParkingDaemon :=
  if s.limits.rows.has (.chat chat) && !s.turns.turns.has id then
    { s with
      messages := s.messages.set chat (s.userMessages chat ++ [⟨s.limits.now / 1000, false⟩])
      turns := s.turns.start id chat (if streamed then .stream else .messages) }
  else s

/-- A turn was completed after every message sent so far. -/
def complete (chat : ChatId) : ParkingDaemon :=
  { s with
    messages := s.messages.modify chat fun sent ↦
      sent.map fun message ↦ { message with answered := true } }

/-- What a message turn does after its run. -/
def finish (id : TurnId) (outcome : TurnOutcome) : ParkingDaemon :=
  match s.turns.turns.get id with
  | some ⟨_, .resume, _, _⟩ => s
  | some ⟨chat, _, .settled, _⟩ =>
    match outcome with
    | .completed => s.complete chat
    | .limited resumeAtMs => { s with limits := s.limits.park (.chat chat) resumeAtMs }
    | .failed => s
  | _ => s

/-- The session of a message turn is registered, or the set-up throws, or the handler ends. -/
def messageTurn (id : TurnId) (event : ChatDaemon → TurnId → ChatDaemon) : ParkingDaemon :=
  match s.turns.turns.get id with
  | some ⟨_, .resume, _, _⟩ => s
  | _ => { s with turns := event s.turns id }

/-- `POST /chats/:id/cancel`. -/
def cancel (chat : ChatId) : ParkingDaemon :=
  { s with
    limits := s.limits.cancel (.chat chat)
    turns := s.turns.cancel chat }

/-- A wake-up of the chat has loaded its module and finds the chat parked. -/
def wakes (chat : ChatId) : Bool :=
  s.limits.inflightWakeups.get (.chat chat) == some .loading &&
    match s.limits.rows.get (.chat chat) with
    | none => false
    | some row => row.status == .rateLimited

/-- `ORDER BY created_at DESC LIMIT 1`; the order of messages of one second is left open. -/
def isLastUser (chat : ChatId) (place : ℕ) : Bool :=
  match (s.userMessages chat)[place]? with
  | none => false
  | some message => (s.userMessages chat).all fun other ↦ decide (other.createdAt ≤ message.createdAt)

/-- `resumeChatAfterRateLimit` up to the construction of the session. -/
def beginResume (chat : ChatId) (id : TurnId) (place : ℕ) (throws : Bool) : ParkingDaemon :=
  if !s.wakes chat then { s with limits := s.limits.beginResume (.chat chat) .runs }
  else if s.userMessages chat = [] then
    { s with limits := s.limits.beginResume (.chat chat) .noUserMessage }
  else if throws then { s with limits := s.limits.beginResume (.chat chat) .throws }
  else if s.isLastUser chat place && !s.turns.turns.has id then
    { s with
      limits := s.limits.beginResume (.chat chat) .runs
      turns := s.turns.start id chat .resume
      repeats := s.repeats.set id place
      wakeups := ⟨chat, decide (.chat chat ∈ s.limits.cancelled)⟩ :: s.wakeups }
  else s

/-- No session of the chat is running. -/
def isAlone (chat : ChatId) : Bool :=
  s.turns.turns.entries.all fun entry ↦ entry.2.chat != chat || entry.2.phase != .running

/-- A turn was completed after the message a resumed turn repeats. -/
def isAnswered (id : TurnId) (chat : ChatId) : Bool :=
  match s.repeats.get id with
  | none => false
  | some place => ((s.userMessages chat)[place]?.map UserMessage.answered).getD false

/-- The rest of `resumeChatAfterRateLimit` up to the run, or a throw before it. -/
def startResume (id : TurnId) (throws : Bool) : ParkingDaemon :=
  match s.turns.turns.get id with
  | some ⟨chat, .resume, .setup, _⟩ =>
    if throws then
      { s with
        turns := s.turns.setupThrows id
        limits := s.limits.endResume (.chat chat) .throws }
    else
      { s with
        turns := s.turns.register id
        replays := ⟨chat, s.isAlone chat, s.isAnswered id chat⟩ :: s.replays }
  | _ => s

/-- What the wake-up does after the run. -/
def endResume (id : TurnId) (outcome : ChatTurn) (completed : Bool) : ParkingDaemon :=
  match s.turns.turns.get id with
  | some ⟨chat, .resume, .settled, _⟩ =>
    let ended :=
      { s with
        turns := s.turns.unregister id
        limits := s.limits.endResume (.chat chat) outcome }
    if completed && outcome == .idle then ended.complete chat else ended
  | _ => s

def restart : ParkingDaemon :=
  { s with
    turns := s.turns.restart
    limits := s.limits.restart }

end ParkingDaemon

inductive ParkingEvent
  | advance (elapsed : ℕ)
  | create (chat : ChatId)
  | send (id : TurnId) (chat : ChatId) (streamed : Bool)
  | setupThrows (id : TurnId)
  | register (id : TurnId)
  | settle (id : TurnId)
  | finish (id : TurnId) (outcome : TurnOutcome)
  | unregister (id : TurnId)
  | cancel (chat : ChatId)
  | fire (chat : ChatId)
  | beginResume (chat : ChatId) (id : TurnId) (place : ℕ) (throws : Bool)
  | startResume (id : TurnId) (throws : Bool)
  | endResume (id : TurnId) (outcome : ChatTurn) (completed : Bool)
  | restart

def ParkingDaemon.step (s : ParkingDaemon) : ParkingEvent → ParkingDaemon
  | .advance elapsed => { s with limits := s.limits.step (.advance elapsed) }
  | .create chat => s.create chat
  | .send id chat streamed => s.send id chat streamed
  | .setupThrows id => s.messageTurn id ChatDaemon.setupThrows
  | .register id => s.messageTurn id ChatDaemon.register
  | .settle id => { s with turns := s.turns.settle id }
  | .finish id outcome => s.finish id outcome
  | .unregister id => s.messageTurn id ChatDaemon.unregister
  | .cancel chat => s.cancel chat
  | .fire chat => { s with limits := s.limits.fire (.chat chat) false }
  | .beginResume chat id place throws => s.beginResume chat id place throws
  | .startResume id throws => s.startResume id throws
  | .endResume id outcome completed => s.endResume id outcome completed
  | .restart => s.restart

end Flockctl.Chats
