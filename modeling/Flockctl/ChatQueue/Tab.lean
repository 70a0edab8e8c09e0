import Flockctl.Collections.JsMap

/-!
# Queued chat messages and their two senders

A tab keeps the messages that wait for the end of a turn in a queue for each chat. The stream hook
of a chat that is open sends the head of the queue once its turn is over; for chats that are not
open the background runner does, chat by chat in a tick. Both leave the message in the queue until
the server has accepted it. What runs between two awaits is one event.
-/

namespace Flockctl.ChatQueue

open Collections

universe u v w

/-- A queued message; its id is the number that is part of the id of the source. -/
structure QueuedChatMessage (Chat : Type u) (Data : Type v) : Type (max u v) where
  id : ℕ
  chatId : Chat
  data : Data
  deriving DecidableEq

/-- Who makes a request: a mounted hook, or the drain of a chat by the runner. -/
inductive Sender (Hook : Type w) (Chat : Type u) : Type (max u w) where
  | hook (id : Hook)
  | runner (chatId : Chat)
  deriving DecidableEq

/-- A request from its start to the end of the body of its response. It carries the ids in the queue
of the chat when it started, to say in which order the messages stood. -/
structure Send (Chat : Type u) (Data : Type v) : Type (max u v) where
  chatId : Chat
  data : Data
  queueEntryId : Option ℕ
  queued : List ℕ
  accepted : Bool := false
  deriving DecidableEq

/-- What becomes of a request: a response with a success status, with a body or without one, a
response with another status, or none because the request fails on its way. -/
inductive Answer where
  | success (body : Bool)
  | rejected (status : ℕ)
  | failed
  deriving DecidableEq

/-- `RunningStatus` -/
inductive RunningStatus where
  | running
  | idle
  | notFound
  deriving DecidableEq

def isPermanentClientError (status : ℕ) : Bool :=
  if status = 429 then false else 400 ≤ status && status < 500

/-- An instance of `useChatStream`, mounted for a chat at some time or not yet. -/
structure ChatStream (Chat : Type u) : Type u where
  chatId : Option Chat := none
  mountedRef : Bool := false
  startingRef : Bool := false
  failedHeadRef : Option ℕ := none
  deriving DecidableEq

/-- What the drain effect sees of the render it belongs to. -/
structure Render where
  isStreaming : Bool
  serverBusy : Bool
  noQueuedMessages : Bool
  deriving DecidableEq

/-- The module state of the queue store and the runner, the hooks, the requests on their way, and
the requests the server has accepted, in order. The runner is `draining` the chats whose `drainOne`
has not returned, and `checking` those that wait for `isChatRunning`, with the head they peeked. -/
structure Tab (Hook : Type w) (Chat : Type u) (Data : Type v) : Type (max u v w) where
  queues : JsMap Chat (List (QueuedChatMessage Chat Data))
  activeChats : Chat → ℕ
  inFlightDrains : Chat → Bool
  counter : ℕ
  hooks : Hook → ChatStream Chat
  ticking : Bool
  draining : List Chat
  checking : Chat → Option (QueuedChatMessage Chat Data)
  sends : Sender Hook Chat → Option (Send Chat Data)
  server : List (Send Chat Data)

inductive Event (Hook : Type w) (Chat : Type u) (Data : Type v) : Type (max u v w) where
  | enqueueMessage (chatId : Chat) (data : Data)
  | removeFromQueue (id : ℕ)
  | clearQueue (chatId : Chat)
  | reorderQueue (chatId : Chat) (fromIndex toIndex : ℕ)
  | mount (hook : Hook) (chatId : Chat)
  | unmount (hook : Hook)
  | drainEffect (hook : Hook) (render : Render)
  | directSend (hook : Hook) (data : Data)
  | answer (sender : Sender Hook Chat) (answer : Answer)
  | bodyEnd (sender : Sender Hook Chat)
  | tick
  | status (chatId : Chat) (status : RunningStatus)
  | tickEnd

namespace Tab

variable {Hook : Type w} {Chat : Type u} {Data : Type v} [DecidableEq Hook] [DecidableEq Chat]

def initial : Tab Hook Chat Data where
  queues := JsMap.empty
  activeChats _ := 0
  inFlightDrains _ := false
  counter := 0
  hooks _ := {}
  ticking := false
  draining := []
  checking _ := none
  sends _ := none
  server := []

def getQueue (s : Tab Hook Chat Data) (chatId : Chat) : List (QueuedChatMessage Chat Data) :=
  (s.queues.get chatId).getD []

/-- The ids in the queue of a chat. -/
def queuedIds (s : Tab Hook Chat Data) (chatId : Chat) : List ℕ := (s.getQueue chatId).map (·.id)

def getAllChatsWithQueue (s : Tab Hook Chat Data) : List Chat :=
  s.queues.keys.filter fun chatId ↦ !(s.getQueue chatId).isEmpty

def peekHead (s : Tab Hook Chat Data) (chatId : Chat) : Option (QueuedChatMessage Chat Data) :=
  (s.getQueue chatId).head?

def enqueueMessage (s : Tab Hook Chat Data) (chatId : Chat) (data : Data) : Tab Hook Chat Data :=
  { s with
    counter := s.counter + 1
    queues := s.queues.set chatId (s.getQueue chatId ++ [⟨s.counter + 1, chatId, data⟩]) }

/-- The queues of the chats that have the id lose it; a queue that gets empty is deleted. -/
def removeFromQueue (s : Tab Hook Chat Data) (id : ℕ) : Tab Hook Chat Data :=
  { s with
    queues := (s.queues.mapWithKey fun _ list ↦ list.filter (·.id ≠ id)).filter
      fun _ list ↦ !list.isEmpty }

def clearQueue (s : Tab Hook Chat Data) (chatId : Chat) : Tab Hook Chat Data :=
  { s with queues := s.queues.delete chatId }

/-- An index that is negative or no integer is rejected like one that is too large. -/
def reorderQueue (s : Tab Hook Chat Data) (chatId : Chat) (fromIndex toIndex : ℕ) :
    Tab Hook Chat Data :=
  let list := s.getQueue chatId
  if s.inFlightDrains chatId || decide (list.length < 2) || decide (list.length ≤ fromIndex) ||
      decide (list.length ≤ toIndex) || decide (fromIndex = toIndex) then s
  else
    match list[fromIndex]? with
    | none => s
    | some moved =>
      { s with queues := s.queues.set chatId ((list.eraseIdx fromIndex).insertIdx toIndex moved) }

def isChatActive (s : Tab Hook Chat Data) (chatId : Chat) : Bool := 0 < s.activeChats chatId

/-! ## The hook -/

/-- The effects that run when a hook is mounted: the mounted flag and `registerActiveChat`. -/
def mount (s : Tab Hook Chat Data) (hook : Hook) (chatId : Chat) : Tab Hook Chat Data :=
  match (s.hooks hook).chatId with
  | some _ => s
  | none =>
    { s with
      hooks := Function.update s.hooks hook
        { s.hooks hook with chatId := some chatId, mountedRef := true }
      activeChats := Function.update s.activeChats chatId (s.activeChats chatId + 1) }

/-- The cleanups of these effects. A request of the hook goes on. -/
def unmount (s : Tab Hook Chat Data) (hook : Hook) : Tab Hook Chat Data :=
  match (s.hooks hook).chatId, (s.hooks hook).mountedRef with
  | some chatId, true =>
    { s with
      hooks := Function.update s.hooks hook { s.hooks hook with mountedRef := false }
      activeChats := Function.update s.activeChats chatId (s.activeChats chatId - 1) }
  | _, _ => s

/-- `markDrainInFlight` and `streamMessage`. -/
def sendFrom (s : Tab Hook Chat Data) (sender : Sender Hook Chat) (chatId : Chat) (data : Data)
    (queueEntryId : Option ℕ) : Tab Hook Chat Data :=
  { s with
    inFlightDrains := Function.update s.inFlightDrains chatId true
    sends := Function.update s.sends sender
      (some { chatId, data, queueEntryId, queued := s.queuedIds chatId }) }

/-- `startStream` to its first await, when no start of the hook is under way. -/
def startStream (s : Tab Hook Chat Data) (hook : Hook) (chatId : Chat) (data : Data)
    (queueEntryId : Option ℕ) : Tab Hook Chat Data :=
  ({ s with hooks := Function.update s.hooks hook { s.hooks hook with startingRef := true } }).sendFrom
    (.hook hook) chatId data queueEntryId

/-- The head that the drain effect of a hook sends. -/
def effectHead (s : Tab Hook Chat Data) (hook : Hook) (render : Render) :
    Option (QueuedChatMessage Chat Data) :=
  let stream := s.hooks hook
  if render.isStreaming || render.serverBusy || stream.startingRef || render.noQueuedMessages ||
      !stream.mountedRef then none
  else
    (stream.chatId.bind s.peekHead).filter fun head ↦ decide (stream.failedHeadRef ≠ some head.id)

def drainEffect (s : Tab Hook Chat Data) (hook : Hook) (render : Render) : Tab Hook Chat Data :=
  match s.effectHead hook render with
  | none => s
  | some head =>
    ({ s with
      hooks := Function.update s.hooks hook { s.hooks hook with failedHeadRef := none } }).startStream
        hook head.chatId head.data (some head.id)

/-- The chat to which a message that the user sends in an open chat goes at once. -/
def directChat (s : Tab Hook Chat Data) (hook : Hook) : Option Chat :=
  if (s.hooks hook).mountedRef && !(s.hooks hook).startingRef then (s.hooks hook).chatId else none

/-- A message that the user sends goes to the queue while a start of the hook is under way. -/
def directSend (s : Tab Hook Chat Data) (hook : Hook) (data : Data) : Tab Hook Chat Data :=
  match (s.hooks hook).chatId, (s.hooks hook).mountedRef with
  | some chatId, true =>
    if (s.hooks hook).startingRef then s.enqueueMessage chatId data
    else s.startStream hook chatId data none
  | _, _ => s

/-- `storeRemove(queueEntryId)`, or `removeFromQueue(head.id)`. -/
def removeEntry (s : Tab Hook Chat Data) (queueEntryId : Option ℕ) : Tab Hook Chat Data :=
  match queueEntryId with
  | none => s
  | some id => s.removeFromQueue id

/-- The server has accepted a request, and its body is read. -/
def acceptSend (s : Tab Hook Chat Data) (sender : Sender Hook Chat) (send : Send Chat Data) :
    Tab Hook Chat Data :=
  { s.removeEntry send.queueEntryId with
    sends := Function.update s.sends sender (some { send with accepted := true })
    server := s.server ++ [send] }

/-- `releaseInFlight()`, when the request has come to its end. -/
def releaseSend (s : Tab Hook Chat Data) (sender : Sender Hook Chat) (chatId : Chat) :
    Tab Hook Chat Data :=
  { s with
    inFlightDrains := Function.update s.inFlightDrains chatId false
    sends := Function.update s.sends sender none }

/-- The `finally` of `startStream`, and the failed head that the drain effect pins when the request
was not accepted. -/
def finishStream (s : Tab Hook Chat Data) (hook : Hook) (send : Send Chat Data) :
    Tab Hook Chat Data :=
  let stream := s.hooks hook
  let pinned := if !send.accepted && stream.mountedRef && send.queueEntryId.isSome
    then send.queueEntryId else stream.failedHeadRef
  ({ s with
    hooks := Function.update s.hooks hook
      { stream with startingRef := false, failedHeadRef := pinned } }).releaseSend
        (.hook hook) send.chatId

/-! ## The runner -/

/-- The `finally` of `drainOne`, which returns. -/
def finishDrain (s : Tab Hook Chat Data) (chatId : Chat) : Tab Hook Chat Data :=
  ({ s with draining := s.draining.filter (· ≠ chatId) }).releaseSend (.runner chatId) chatId

/-- The chats for which `drainOne` gets to its first await. -/
def drainable (s : Tab Hook Chat Data) : List Chat :=
  s.getAllChatsWithQueue.filter fun chatId ↦
    !s.inFlightDrains chatId && !s.isChatActive chatId && (s.peekHead chatId).isSome

/-- `tick` to its await. -/
def tick (s : Tab Hook Chat Data) : Tab Hook Chat Data :=
  if s.ticking then s
  else
    { s with
      ticking := true
      draining := s.drainable
      checking := fun chatId ↦ if chatId ∈ s.drainable then s.peekHead chatId else none }

/-- `tick` returns when the drains of all chats have returned. -/
def tickEnd (s : Tab Hook Chat Data) : Tab Hook Chat Data :=
  if s.draining.isEmpty then { s with ticking := false } else s

/-- `drainOne` returns after `isChatRunning`. -/
def checked (s : Tab Hook Chat Data) (chatId : Chat) : Tab Hook Chat Data :=
  { s with
    checking := Function.update s.checking chatId none
    draining := s.draining.filter (· ≠ chatId) }

/-- `drainOne` from the return of `isChatRunning` to the next await. -/
def status (s : Tab Hook Chat Data) (chatId : Chat) (found : RunningStatus) :
    Tab Hook Chat Data :=
  match s.checking chatId with
  | none => s
  | some head =>
    match found with
    | .running => s.checked chatId
    | .notFound => (s.checked chatId).clearQueue chatId
    | .idle =>
      if s.inFlightDrains chatId || s.isChatActive chatId ||
          decide ((s.peekHead chatId).map (·.id) ≠ some head.id) then s.checked chatId
      else
        ({ s with checking := Function.update s.checking chatId none }).sendFrom (.runner chatId)
          chatId head.data (some head.id)

/-! ## Responses -/

/-- The response to a request of a hook. A success without a body is thrown as an error. -/
def answerHook (s : Tab Hook Chat Data) (hook : Hook) (send : Send Chat Data) :
    Answer → Tab Hook Chat Data
  | .success true => s.acceptSend (.hook hook) send
  | .success false => ({ s with server := s.server ++ [send] }).finishStream hook send
  | .rejected _ | .failed => s.finishStream hook send

/-- The response to a request of the runner, that drops the head on a permanent error. -/
def answerRunner (s : Tab Hook Chat Data) (chatId : Chat) (send : Send Chat Data) :
    Answer → Tab Hook Chat Data
  | .success _ => s.acceptSend (.runner chatId) send
  | .rejected status =>
    if isPermanentClientError status then (s.removeEntry send.queueEntryId).finishDrain chatId
    else s.finishDrain chatId
  | .failed => s.finishDrain chatId

def answer (s : Tab Hook Chat Data) (sender : Sender Hook Chat) (answer : Answer) :
    Tab Hook Chat Data :=
  match s.sends sender with
  | none => s
  | some send =>
    if send.accepted then s
    else
      match sender with
      | .hook hook => s.answerHook hook send answer
      | .runner chatId => s.answerRunner chatId send answer

/-- The body of an accepted response ends, or cannot be read any further. -/
def bodyEnd (s : Tab Hook Chat Data) (sender : Sender Hook Chat) : Tab Hook Chat Data :=
  match s.sends sender with
  | none => s
  | some send =>
    if send.accepted then
      match sender with
      | .hook hook => s.finishStream hook send
      | .runner chatId => s.finishDrain chatId
    else s

def step (s : Tab Hook Chat Data) : Event Hook Chat Data → Tab Hook Chat Data
  | .enqueueMessage chatId data => s.enqueueMessage chatId data
  | .removeFromQueue id => s.removeFromQueue id
  | .clearQueue chatId => s.clearQueue chatId
  | .reorderQueue chatId fromIndex toIndex => s.reorderQueue chatId fromIndex toIndex
  | .mount hook chatId => s.mount hook chatId
  | .unmount hook => s.unmount hook
  | .drainEffect hook render => s.drainEffect hook render
  | .directSend hook data => s.directSend hook data
  | .answer sender answer => s.answer sender answer
  | .bodyEnd sender => s.bodyEnd sender
  | .tick => s.tick
  | .status chatId found => s.status chatId found
  | .tickEnd => s.tickEnd

end Tab

end Flockctl.ChatQueue

/-!
# Wake-ups of the background runner

A change of the store or of the query cache, the safety-net interval and the return to a visible tab
ask for a tick, which runs as a microtask. A tick calls `drainOne` for every chat with a queue and
ends when all these calls have returned; a tick that comes while another one runs does nothing. The
other events come only when no microtask is left.

A call of `drainOne` that returns settles its promise after the tick it has asked for is queued: the
handler that counts the calls is a microtask of its own, and so is the end of the tick.
-/

namespace Flockctl.ChatQueue

open Collections

universe u v w

/-- The next steps of the runner: a tick that was asked for, a `drainOne` that goes on because the
cache says that its chat is idle, the handler of a call that has returned, the end of a tick. -/
inductive Microtask (Chat : Type u) : Type u where
  | tick
  | checked (chatId : Chat)
  | returned
  | settled
  deriving DecidableEq

/-- The runner, with what the query cache and the server say about `is_running`. Of a tick that runs
it counts the calls that have not been handled, and `ticks` lists for each tick so far the chats it
has called `drainOne` for. -/
structure Runner (Hook : Type w) (Chat : Type u) (Data : Type v) : Type (max u v w) where
  tab : Tab Hook Chat Data
  cached : Chat → Option Bool
  isRunning : Chat → Bool
  pending : Bool
  microtasks : List (Microtask Chat)
  unhandled : ℕ
  hidden : Bool
  safetyNetInterval : Bool
  ticks : List (List Chat)

/-- What happens next to a tab with a runner; a change of the server reaches the tab only through
its cache. -/
inductive RunnerStep (Hook : Type w) (Chat : Type u) (Data : Type v) : Type (max u v w) where
  | tab (event : Event Hook Chat Data)
  | cache (chatId : Chat) (isRunning : Option Bool)
  | server (chatId : Chat) (isRunning : Bool)
  | interval
  | visibilitychange (hidden : Bool)
  | microtask

variable {Hook : Type w} {Chat : Type u} {Data : Type v} [DecidableEq Hook] [DecidableEq Chat]

namespace Tab

variable (s : Tab Hook Chat Data)

/-! ## When the store notifies its subscribers -/

def removes (id : ℕ) : Bool := s.queues.entries.any fun entry ↦ entry.2.any (·.id = id)

def removesEntry (queueEntryId : Option ℕ) : Bool :=
  match queueEntryId with
  | none => false
  | some id => s.removes id

def reorders (chatId : Chat) (fromIndex toIndex : ℕ) : Bool :=
  let list := s.getQueue chatId
  !(s.inFlightDrains chatId || decide (list.length < 2) || decide (list.length ≤ fromIndex) ||
    decide (list.length ≤ toIndex) || decide (fromIndex = toIndex))

/-- `drainOne` returns after `isChatRunning` has found an idle chat. -/
def movedOn (chatId : Chat) (head : QueuedChatMessage Chat Data) : Bool :=
  s.inFlightDrains chatId || s.isChatActive chatId ||
    decide ((s.peekHead chatId).map (·.id) ≠ some head.id)

/-- The event makes the store notify its subscribers, or the runner ask for a tick itself, which it
does when a drain ends. -/
def asksForTick : Event Hook Chat Data → Bool
  | .enqueueMessage _ _ => true
  | .removeFromQueue id => s.removes id
  | .clearQueue chatId => s.queues.has chatId
  | .reorderQueue chatId fromIndex toIndex => s.reorders chatId fromIndex toIndex
  | .mount hook chatId => (s.hooks hook).chatId.isNone && decide (s.activeChats chatId = 0)
  | .unmount hook =>
    match (s.hooks hook).chatId, (s.hooks hook).mountedRef with
    | some chatId, true => decide (s.activeChats chatId ≤ 1)
    | _, _ => false
  | .drainEffect hook render =>
    match s.effectHead hook render with
    | none => false
    | some head => !s.inFlightDrains head.chatId
  | .directSend hook _ =>
    match (s.hooks hook).chatId, (s.hooks hook).mountedRef with
    | some chatId, true => (s.hooks hook).startingRef || !s.inFlightDrains chatId
    | _, _ => false
  | .answer sender answer =>
    match s.sends sender with
    | none => false
    | some send =>
      if send.accepted then false
      else
        match sender, answer with
        | .hook _, .success true => s.removesEntry send.queueEntryId
        | .hook _, _ => s.inFlightDrains send.chatId
        | .runner _, .success _ => s.removesEntry send.queueEntryId
        | .runner _, _ => true
  | .bodyEnd sender =>
    match s.sends sender with
    | none => false
    | some send =>
      send.accepted &&
        match sender with
        | .hook _ => s.inFlightDrains send.chatId
        | .runner _ => true
  | .status chatId found =>
    match s.checking chatId, found with
    | some head, .idle => !s.movedOn chatId head
    | some _, .notFound => s.queues.has chatId
    | _, _ => false
  | .tick | .tickEnd => false

end Tab

namespace Runner

variable (s : Runner Hook Chat Data)

/-- `startChatQueueRunner` in a new tab. -/
def start (hidden : Bool) : Runner Hook Chat Data where
  tab := Tab.initial
  cached _ := none
  isRunning _ := false
  pending := true
  microtasks := [.tick]
  unhandled := 0
  hidden := hidden
  safetyNetInterval := !hidden
  ticks := []

def scheduleTick : Runner Hook Chat Data :=
  if s.pending then s else { s with pending := true, microtasks := s.microtasks ++ [.tick] }

/-- What an event does between two awaits. A call of `drainOne` that returns is handled later. -/
def perform (event : Event Hook Chat Data) : Runner Hook Chat Data :=
  let tab := s.tab.step event
  let asked := if s.tab.asksForTick event then s.scheduleTick else s
  { asked with
    tab := tab
    microtasks := asked.microtasks ++
      List.replicate (s.tab.draining.length - tab.draining.length) .returned }

/-- The calls of `drainOne` for which the cache knows that the chat is idle. -/
def cachedIdle : List Chat := s.tab.drainable.filter fun chatId ↦ s.cached chatId = some false

/-- `tick` to its await. A call that returns before its first await is handled after the calls that
go on at once. -/
def tick : Runner Hook Chat Data :=
  if s.tab.ticking then { s with ticks := s.ticks ++ [[]] }
  else
    let chatIds := s.tab.getAllChatsWithQueue
    let handlers : List (Microtask Chat) :=
      if chatIds = [] then [.settled]
      else List.replicate (chatIds.length - s.tab.drainable.length) .returned
    { s with
      tab := s.tab.tick
      microtasks := s.microtasks ++ s.cachedIdle.map .checked ++ handlers
      unhandled := chatIds.length
      ticks := s.ticks ++ [chatIds] }

/-- The next microtask runs. -/
def runMicrotask : Runner Hook Chat Data :=
  match s.microtasks with
  | [] => s
  | .tick :: rest => tick { s with pending := false, microtasks := rest }
  | .checked chatId :: rest => perform { s with microtasks := rest } (.status chatId .idle)
  | .returned :: rest =>
    { s with
      unhandled := s.unhandled - 1
      microtasks := if s.unhandled = 1 then rest ++ [.settled] else rest }
  | .settled :: rest => { s with tab := s.tab.tickEnd, microtasks := rest }

/-- `onVisibilityChange` -/
def onVisibilityChange (hidden : Bool) : Runner Hook Chat Data :=
  if hidden then { s with hidden := true, safetyNetInterval := false }
  else { s.scheduleTick with hidden := false, safetyNetInterval := true }

/-- An event that comes when no microtask is left. -/
def receive : RunnerStep Hook Chat Data → Runner Hook Chat Data
  | .tab .tick | .tab .tickEnd => s
  | .tab event => s.perform event
  | .cache chatId isRunning =>
    scheduleTick { s with cached := Function.update s.cached chatId isRunning }
  | .server chatId isRunning =>
    { s with isRunning := Function.update s.isRunning chatId isRunning }
  | .interval => if s.safetyNetInterval then s.scheduleTick else s
  | .visibilitychange hidden => s.onVisibilityChange hidden
  | .microtask => s

/-- Microtasks run first. -/
def step : RunnerStep Hook Chat Data → Runner Hook Chat Data
  | .microtask => s.runMicrotask
  | event => if s.microtasks = [] then s.receive event else s

end Runner

end Flockctl.ChatQueue
