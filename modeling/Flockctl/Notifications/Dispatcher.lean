import Flockctl.Collections.JsMap

/-!
# The notification dispatcher

The tab that leads shows desktop notifications. The rows of the inbox are compared by their keys
with the rows of the last poll: a key that is gone has its notification closed, and a key that is
new has one shown, unless one with that key was shown less than five seconds before. Notifications
of tasks that have ended close themselves after five minutes.
-/

namespace Flockctl.Notifications

open Collections

abbrev Text := List Char

inductive AttentionKind
  | taskApproval
  | chatApproval
  | taskPermission
  | chatPermission
  | taskQuestion
  | chatQuestion
  deriving DecidableEq, Repr

def AttentionKind.text : AttentionKind → Text
  | .taskApproval => "task_approval".toList
  | .chatApproval => "chat_approval".toList
  | .taskPermission => "task_permission".toList
  | .chatPermission => "chat_permission".toList
  | .taskQuestion => "task_question".toList
  | .chatQuestion => "chat_question".toList

/-- A row of the inbox: `ownerId` is its `task_id` or `chat_id`, an approval has no `requestId`, and
`subject` is the title of an approval, the tool of a permission or the text of a question. -/
structure AttentionItem where
  kind : AttentionKind
  ownerId : Text
  requestId : Option Text := none
  subject : Text := []
  deriving DecidableEq, Repr

inductive NotifiableCategory
  | approval
  | question
  | done
  | failed
  | blocked
  | chatReply
  deriving DecidableEq, Repr

inductive NotifiableSource
  | attention
  | taskTerminal
  deriving DecidableEq, Repr

structure Notifiable where
  category : NotifiableCategory
  key : Text
  title : Text
  body : Option Text := none
  source : Option NotifiableSource := none
  item : Option AttentionItem := none
  deriving DecidableEq, Repr

def DEDUP_TTL_MS : ℕ := 5000

def TASK_TERMINAL_TTL_MS : ℕ := 5 * 60 * 1000

/-- What the gates ask, and where the user is. -/
structure Surroundings where
  isLeader : Bool
  enabled : Bool
  wants : NotifiableCategory → Bool
  granted : Bool
  hasFocus : Bool
  pathname : Text

/-- Every gate is open, and the tab is in the background. -/
def openGates (pathname : Text) : Surroundings where
  isLeader := true
  enabled := true
  wants := fun _ ↦ true
  granted := true
  hasFocus := false
  pathname := pathname

/-- A notification that was shown, and when. -/
structure Shown where
  notifiable : Notifiable
  firedAt : ℕ
  deriving DecidableEq, Repr

/-- The dispatcher closes a notification by `resolveByKey`, or when another one takes its key. -/
inductive Closing
  | resolved (id : ℕ)
  | replaced (id : ℕ)
  deriving DecidableEq, Repr

/-- The dispatcher of a tab. `shown` are all notifications ever shown; a notification is known by
its number among them. `timers` are those of terminal notifications, with the times they are due
at. -/
structure Dispatcher where
  now : ℕ
  recent : JsMap Text ℕ := JsMap.empty
  handles : JsMap Text ℕ := JsMap.empty
  timers : List (ℕ × Text) := []
  shown : List Shown := []
  closed : List Closing := []

namespace Dispatcher

variable (env : Surroundings) (s : Dispatcher)

/-- The sweep of `fire`. -/
def swept : JsMap Text ℕ := s.recent.filter fun _ expireAt ↦ !decide (expireAt ≤ s.now)

/-- The rest of `fire`, behind the gates. -/
def construct (n : Notifiable) : Dispatcher where
  now := s.now
  recent := s.swept.set n.key (s.now + DEDUP_TTL_MS)
  handles := s.handles.set n.key s.shown.length
  timers :=
    if n.source = some .taskTerminal then s.timers ++ [(s.now + TASK_TERMINAL_TTL_MS, n.key)]
    else s.timers
  shown := s.shown ++ [⟨n, s.now⟩]
  closed := s.closed ++ ((s.handles.get n.key).map Closing.replaced).toList

def fire (n : Notifiable) : Dispatcher :=
  if !env.isLeader then s
  else if !env.enabled then s
  else if !env.wants n.category then s
  else if !env.granted then s
  else if s.swept.has n.key then { s with recent := s.swept }
  else s.construct n

def resolveByKey (key : Text) : Dispatcher :=
  match s.handles.get key with
  | none => s
  | some handle =>
    { s with handles := s.handles.delete key, closed := s.closed ++ [.resolved handle] }

/-- `onclose`: the user, or the platform, has closed a notification. -/
def onclose (id : ℕ) : Dispatcher :=
  match s.shown[id]? with
  | none => s
  | some shown =>
    if s.handles.get shown.notifiable.key = some id then
      { s with handles := s.handles.delete shown.notifiable.key }
    else s

/-- A timer that is due closes whatever has its key. -/
def timeout (index : ℕ) : Dispatcher :=
  match s.timers[index]? with
  | none => s
  | some (due, key) =>
    if s.now < due then s
    else { s with timers := s.timers.eraseIdx index }.resolveByKey key

end Dispatcher

def attentionItemKey (item : AttentionItem) : Text :=
  match item.kind with
  | .taskApproval | .taskPermission | .chatApproval | .chatPermission =>
    item.kind.text ++ ':' :: item.ownerId
  | .taskQuestion | .chatQuestion => item.kind.text ++ ':' :: item.requestId.getD []

def categoryFor (item : AttentionItem) : NotifiableCategory :=
  match item.kind with
  | .taskApproval | .taskPermission | .chatApproval | .chatPermission => .approval
  | .taskQuestion | .chatQuestion => .question

/-- The label of a category, in the locale. -/
def categoryTitle : NotifiableCategory → Text
  | .approval => "Approval needed".toList
  | .question => "Agent asked a question".toList
  | .done => "Task completed".toList
  | .failed => "Task failed".toList
  | .blocked => "Task cancelled or timed out".toList
  | .chatReply => "Chat reply".toList

/-- What the hook hands to `fire` for a new row. -/
def notifiableFor (item : AttentionItem) : Notifiable where
  category := categoryFor item
  key := attentionItemKey item
  title := categoryTitle (categoryFor item)
  body := if item.subject = [] then none else some item.subject
  source := some .attention
  item := some item

def isFocusedOnSameEntity (env : Surroundings) (item : AttentionItem) : Bool :=
  env.hasFocus &&
    match item.kind with
    | .taskApproval | .taskPermission | .taskQuestion =>
      env.pathname == "/tasks/".toList ++ item.ownerId
    | .chatApproval | .chatPermission | .chatQuestion =>
      env.pathname == "/chats/".toList ++ item.ownerId

structure InboxDiff where
  added : List AttentionItem
  removedKeys : List Text

def diffAttentionForNotificationsBidirectional (prev : Option (List AttentionItem))
    (next : List AttentionItem) : InboxDiff :=
  match prev with
  | none => ⟨[], []⟩
  | some prev =>
    let prevKeys := (prev.map attentionItemKey).eraseDups
    let nextKeys := next.map attentionItemKey
    { added := next.filter fun item ↦ !prevKeys.contains (attentionItemKey item)
      removedKeys := prevKeys.filter fun key ↦ !nextKeys.contains key }

inductive TerminalStatus
  | done
  | failed
  | cancelled
  | timedOut
  deriving DecidableEq, Repr

def TerminalStatus.text : TerminalStatus → Text
  | .done => "done".toList
  | .failed => "failed".toList
  | .cancelled => "cancelled".toList
  | .timedOut => "timed_out".toList

def TerminalStatus.category : TerminalStatus → NotifiableCategory
  | .done => .done
  | .failed => .failed
  | .cancelled | .timedOut => .blocked

def taskTerminalKey (taskId : Text) (status : TerminalStatus) : Text :=
  "task_terminal".toList ++ ':' :: (taskId ++ ':' :: status.text)

/-- What the hook of terminal tasks hands to `fire`. -/
def terminalNotifiable (taskId : Text) (status : TerminalStatus) (body : Text) : Notifiable where
  category := status.category
  key := taskTerminalKey taskId status
  title := categoryTitle status.category
  body := some body
  source := some .taskTerminal

/-- What the hook of chat replies hands to `fire`. -/
def chatReplyNotifiable (chatId messageId : Text) : Notifiable where
  category := .chatReply
  key := "chat_assistant_final".toList ++ ':' :: (chatId ++ ':' :: messageId)
  title := categoryTitle .chatReply

/-- A tab with its dispatcher; `prev` are the rows of the last poll. -/
structure NotifyingTab where
  dispatcher : Dispatcher
  prev : Option (List AttentionItem) := none

inductive TabEvent
  | snapshot (items : List AttentionItem)
  | taskStatus (taskId : Text) (status : TerminalStatus) (body : Text)
  | chatReply (chatId messageId : Text)
  | onclose (id : ℕ)
  | timeout (index : ℕ)
  | advance (elapsed : ℕ)

namespace NotifyingTab

variable (env : Surroundings)

/-- `useAttentionNotifications`. -/
def observe (s : NotifyingTab) (items : List AttentionItem) : NotifyingTab :=
  let diff := diffAttentionForNotificationsBidirectional s.prev items
  let resolved := diff.removedKeys.foldl Dispatcher.resolveByKey s.dispatcher
  let announced := diff.added.filter fun item ↦ !isFocusedOnSameEntity env item
  { dispatcher := announced.foldl (fun d item ↦ d.fire env (notifiableFor item)) resolved
    prev := some items }

def step (s : NotifyingTab) : TabEvent → NotifyingTab
  | .snapshot items => s.observe env items
  | .taskStatus taskId status body =>
    { s with dispatcher := s.dispatcher.fire env (terminalNotifiable taskId status body) }
  | .chatReply chatId messageId =>
    { s with dispatcher := s.dispatcher.fire env (chatReplyNotifiable chatId messageId) }
  | .onclose id => { s with dispatcher := s.dispatcher.onclose id }
  | .timeout index => { s with dispatcher := s.dispatcher.timeout index }
  | .advance elapsed =>
    { s with dispatcher := { s.dispatcher with now := s.dispatcher.now + elapsed } }

end NotifyingTab

end Flockctl.Notifications
