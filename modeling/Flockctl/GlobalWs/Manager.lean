import Flockctl.Encoding.Json

/-!
# Reconnecting sockets

A client keeps one socket and makes a new one some time after it was closed. A socket that was
replaced by its own client has no handlers any more; one whose client was closed still has them.
The platform opens a socket at most once and closes it at most once.
-/

namespace Flockctl.GlobalWs

abbrev ProjectId := List Char

/-- `WebSocket.readyState`. -/
inductive ReadyState
  | connecting
  | open
  | closing
  | closed
  deriving DecidableEq, Repr

/-- A socket: the client that made it, whether that client's handlers are still set, whether it has
opened, and the projects of the subscribe envelopes sent on it. -/
structure Socket where
  client : ℕ := 0
  ready : ReadyState := .closed
  attached : Bool := false
  hasOpened : Bool := false
  announced : List ProjectId := []
  deriving DecidableEq, Repr

inductive ConnectionState
  | connecting
  | open
  | closed
  deriving DecidableEq, Repr

structure WebSocketClient where
  ws : Option ℕ := none
  state : ConnectionState := .closed
  retryTimer : Bool := false
  disposed : Bool := true
  deriving DecidableEq, Repr

/-- All sockets and clients made so far, by number, and the manager's client. -/
structure Wire where
  sockets : ℕ → Socket := fun _ ↦ {}
  clients : ℕ → WebSocketClient := fun _ ↦ {}
  socketCount : ℕ := 0
  clientCount : ℕ := 0
  client : Option ℕ := none

namespace Wire

variable (w : Wire)

def setSocket (id : ℕ) (socket : Socket) : Wire :=
  { w with sockets := Function.update w.sockets id socket }

def setClient (c : ℕ) (client : WebSocketClient) : Wire :=
  { w with clients := Function.update w.clients c client }

/-- `ws.close()`. -/
def closeSocket (id : ℕ) : Wire :=
  if (w.sockets id).ready = .closed then w
  else w.setSocket id { w.sockets id with ready := .closing }

/-- `cleanup`: the old socket loses its handlers. -/
def cleanup (c : ℕ) : Wire :=
  match (w.clients c).ws with
  | none => w
  | some id =>
    let detached := w.setSocket id { w.sockets id with attached := false }
    let closed :=
      if (w.sockets id).ready = .open ∨ (w.sockets id).ready = .connecting then
        detached.closeSocket id
      else detached
    closed.setClient c { w.clients c with ws := none }

def connect (c : ℕ) : Wire :=
  if (w.clients c).disposed then w
  else
    let clean := w.cleanup c
    { clean.setSocket w.socketCount { client := c, ready := .connecting, attached := true } with
      clients := Function.update clean.clients c
        { clean.clients c with ws := some w.socketCount, state := .connecting }
      socketCount := w.socketCount + 1 }

/-- `close`. The handlers of the socket stay. -/
def close (c : ℕ) : Wire :=
  let closed := match (w.clients c).ws with
    | none => w
    | some id => w.closeSocket id
  closed.setClient c { ws := none, state := .closed, retryTimer := false, disposed := true }

/-- `this.client?.close(); this.client = null`. -/
def dropClient : Wire :=
  match w.client with
  | none => w
  | some c => { w.close c with client := none }

/-- The rest of `ensureClient`, when there is no client. -/
def makeClient : Wire :=
  connect
    { w with
      clients := Function.update w.clients w.clientCount { disposed := false }
      clientCount := w.clientCount + 1
      client := some w.clientCount }
    w.clientCount

/-- The socket of the manager's client. -/
def current : Option ℕ := w.client.bind fun c ↦ (w.clients c).ws

/-- `sendSubscribe`, with `send` of the client. -/
def sendSubscribe (projectId : ProjectId) : Wire :=
  match w.client with
  | none => w
  | some c =>
    if (w.clients c).state = .open then
      match (w.clients c).ws with
      | none => w
      | some id =>
        if (w.sockets id).ready = .open then
          w.setSocket id { w.sockets id with
            announced := (w.sockets id).announced ++ [projectId] }
        else w
    else w

/-- The platform may still open the socket. -/
def mayOpen (id : ℕ) : Bool :=
  match (w.sockets id).ready with
  | .connecting => true
  | .closing => !(w.sockets id).hasOpened
  | _ => false

/-- `onopen`, up to the callback. -/
def opened (id : ℕ) : Wire :=
  let socket := w.sockets id
  let fresh := w.setSocket id { socket with
    ready := if socket.ready = .connecting then .open else socket.ready
    hasOpened := true }
  if socket.attached then
    fresh.setClient socket.client { w.clients socket.client with state := .open }
  else fresh

/-- `onclose`, with `scheduleReconnect`. -/
def closed (id : ℕ) : Wire :=
  let socket := w.sockets id
  let client := w.clients socket.client
  let gone := w.setSocket id { socket with ready := .closed }
  if socket.attached then
    gone.setClient socket.client
      { client with state := .closed, retryTimer := client.retryTimer || !client.disposed }
  else gone

/-- The callback of the retry timer. -/
def retry (c : ℕ) : Wire :=
  if (w.clients c).retryTimer then
    (w.setClient c { w.clients c with retryTimer := false }).connect c
  else w

end Wire

end Flockctl.GlobalWs

/-!
# The manager of the shared socket

All subscriptions to the topics of projects share one socket. It is made for the first one, dropped
after the last one, and made anew when another server is chosen. Every time it opens, the projects
are announced on it. A flag tells whether it is open, and listeners hear of every reconnect.
-/

namespace Flockctl.GlobalWs

open Collections Encoding

inductive Topic
  | fs
  | git
  deriving DecidableEq, Repr

/-- What `subscribeFs` or `subscribeGit` returned an unsubscribe function for; `active` is the
variable of that function. -/
structure Subscription where
  topic : Topic
  projectId : ProjectId
  handler : ℕ
  active : Bool := true
  deriving DecidableEq, Repr

/-- The maps of the manager, and the subscriptions made so far. -/
structure Registry where
  fsRefcount : JsMap ProjectId ℕ := JsMap.empty
  fsHandlers : JsMap ProjectId (List ℕ) := JsMap.empty
  gitHandlers : JsMap ProjectId (List ℕ) := JsMap.empty
  subscriptions : List Subscription := []

namespace Registry

variable (r : Registry)

def isIdle : Bool := r.fsRefcount.size == 0 && r.gitHandlers.size == 0

/-- `set.add(handler)` on the set of a project, which is made if there is none. -/
def addTo (handlers : JsMap ProjectId (List ℕ)) (projectId : ProjectId) (handler : ℕ) :
    JsMap ProjectId (List ℕ) :=
  let set := (handlers.get projectId).getD []
  handlers.set projectId (if handler ∈ set then set else set ++ [handler])

def addFs (projectId : ProjectId) (handler : ℕ) : Registry :=
  { r with
    fsHandlers := addTo r.fsHandlers projectId handler
    fsRefcount := r.fsRefcount.set projectId ((r.fsRefcount.get projectId).getD 0 + 1)
    subscriptions := r.subscriptions ++ [⟨.fs, projectId, handler, true⟩] }

def addGit (projectId : ProjectId) (handler : ℕ) : Registry :=
  { r with
    gitHandlers := addTo r.gitHandlers projectId handler
    subscriptions := r.subscriptions ++ [⟨.git, projectId, handler, true⟩] }

/-- What the unsubscribe function of `subscribeFs` does to the maps. -/
def removeFs (projectId : ProjectId) (handler : ℕ) : Registry :=
  let handlers := r.fsHandlers.modify projectId (·.erase handler)
  let next := (r.fsRefcount.get projectId).getD 1 - 1
  if next = 0 then
    { r with
      fsRefcount := r.fsRefcount.delete projectId
      fsHandlers := handlers.delete projectId }
  else { r with fsRefcount := r.fsRefcount.set projectId next, fsHandlers := handlers }

/-- What the unsubscribe function of `subscribeGit` does to the maps. -/
def removeGit (projectId : ProjectId) (handler : ℕ) : Registry :=
  let handlers := r.gitHandlers.modify projectId (·.erase handler)
  { r with
    gitHandlers :=
      if handlers.get projectId = some [] then handlers.delete projectId else handlers }

def remove (subscription : Subscription) : Registry :=
  match subscription.topic with
  | .fs => r.removeFs subscription.projectId subscription.handler
  | .git => r.removeGit subscription.projectId subscription.handler

/-- `active = false`. -/
def retire (index : ℕ) : Registry :=
  { r with subscriptions := r.subscriptions.modify index ({ · with active := false }) }

/-- The projects `resubscribeAll` announces. -/
def projectIds : List ProjectId := (r.fsRefcount.keys ++ r.gitHandlers.keys).eraseDups

def handlersOf (topic : Topic) (projectId : ProjectId) : List ℕ :=
  match topic with
  | .fs => (r.fsHandlers.get projectId).getD []
  | .git => (r.gitHandlers.get projectId).getD []

end Registry

def textProperty (data : Json) (name : String) : Option (List Char) :=
  match data.property name.toList with
  | some (.string text) => some text
  | _ => none

def hasNumber (data : Json) (name : String) : Bool :=
  match data.property name.toList with
  | some (.number _) => true
  | _ => false

/-- The property is one of some texts. -/
def isOneOf (data : Json) (name : String) (texts : List String) : Bool :=
  texts.any fun text ↦ textProperty data name == some text.toList

/-- `isFsChangedFrame`, with the project of the frame. -/
def fsChangedFrame (data : Json) : Option ProjectId :=
  let sha := match data.property "sha".toList with
    | some (.string _) | some .null => true
    | _ => false
  if isOneOf data "kind" ["fs.changed"] && (textProperty data "path").isSome && sha &&
      isOneOf data "event" ["add", "change", "unlink"] &&
      isOneOf data "source" ["agent", "external"] && hasNumber data "ts" then
    textProperty data "projectId"
  else none

/-- `isGitStatusChangedFrame`, with the project of the frame. -/
def gitStatusChangedFrame (data : Json) : Option ProjectId :=
  if isOneOf data "kind" ["git-status-changed"] && hasNumber data "ts" then
    textProperty data "projectId"
  else none

/-- What a frame is about, if it is one of the two kinds. -/
def topicOf (data : Json) : Option (Topic × ProjectId) :=
  match fsChangedFrame data with
  | some projectId => some (.fs, projectId)
  | none => (gitStatusChangedFrame data).map (Topic.git, ·)

structure Connectedness where
  connected : Bool := false
  hasDisconnected : Bool := false
  reconnectListeners : List ℕ := []
  /-- The listeners that have been called, in this order. -/
  reconnectCalls : List ℕ := []
  deriving DecidableEq, Repr

def Connectedness.setConnected (flag : Connectedness) (value : Bool) : Connectedness :=
  if flag.connected = value then flag
  else if value then
    { flag with
      connected := true
      reconnectCalls := flag.reconnectCalls ++
        if flag.hasDisconnected then flag.reconnectListeners else [] }
  else { flag with connected := false, hasDisconnected := true }

/-- The manager; `delivered` are the calls of handlers with the frames they were given. -/
structure GlobalWsManager where
  wire : Wire := {}
  registry : Registry := {}
  flag : Connectedness := {}
  serverUnsub : Bool := false
  delivered : List (ℕ × Json) := []

inductive WsEvent
  | subscribe (topic : Topic) (projectId : ProjectId) (handler : ℕ)
  | unsubscribe (index : ℕ)
  | serverSwitch
  | opened (id : ℕ)
  | closed (id : ℕ)
  | message (id : ℕ) (data : Option Json)
  | retry (client : ℕ)
  | subscribeReconnect (listener : ℕ)
  | unsubscribeReconnect (listener : ℕ)

namespace GlobalWsManager

variable (s : GlobalWsManager)

def setConnected (value : Bool) : GlobalWsManager :=
  { s with flag := s.flag.setConnected value }

def ensureClient : GlobalWsManager :=
  if s.wire.client.isSome then s
  else { s with wire := s.wire.makeClient, serverUnsub := true }

def teardown : GlobalWsManager :=
  { s with wire := s.wire.dropClient, serverUnsub := false }.setConnected false

def sendSubscribe (projectId : ProjectId) : GlobalWsManager :=
  { s with wire := s.wire.sendSubscribe projectId }

def resubscribeAll : GlobalWsManager :=
  { s with wire := s.registry.projectIds.foldl Wire.sendSubscribe s.wire }

def subscribeFs (projectId : ProjectId) (handler : ℕ) : GlobalWsManager :=
  let prevCount := (s.registry.fsRefcount.get projectId).getD 0
  let ready := { s with registry := s.registry.addFs projectId handler }.ensureClient
  if prevCount = 0 then ready.sendSubscribe projectId else ready

def subscribeGit (projectId : ProjectId) (handler : ℕ) : GlobalWsManager :=
  let isFirstForProject := !s.registry.gitHandlers.has projectId
  let ready := { s with registry := s.registry.addGit projectId handler }.ensureClient
  if isFirstForProject ∧ (ready.registry.fsRefcount.get projectId).getD 0 = 0 then
    ready.sendSubscribe projectId
  else ready

/-- A call of an unsubscribe function. -/
def unsubscribe (index : ℕ) : GlobalWsManager :=
  match s.registry.subscriptions[index]? with
  | none => s
  | some subscription =>
    if subscription.active then
      let left := { s with registry := (s.registry.retire index).remove subscription }
      if left.registry.isIdle then left.teardown else left
    else s

/-- The listener of the active server. -/
def serverSwitch : GlobalWsManager :=
  if s.serverUnsub = false ∨ s.registry.isIdle then s
  else ({ s with wire := s.wire.dropClient }.setConnected false).ensureClient.resubscribeAll

def opened (id : ℕ) : GlobalWsManager :=
  if s.wire.mayOpen id then
    let fresh := { s with wire := s.wire.opened id }
    if (s.wire.sockets id).attached then fresh.resubscribeAll.setConnected true else fresh
  else s

def closed (id : ℕ) : GlobalWsManager :=
  if (s.wire.sockets id).ready = .closed then s
  else
    let gone := { s with wire := s.wire.closed id }
    if (s.wire.sockets id).attached then gone.setConnected false else gone

/-- `dispatch`. -/
def dispatch (data : Json) : GlobalWsManager :=
  match topicOf data with
  | none => s
  | some (topic, projectId) =>
    { s with
      delivered := s.delivered ++ (s.registry.handlersOf topic projectId).map ((·, data)) }

def message (id : ℕ) (data : Option Json) : GlobalWsManager :=
  let socket := s.wire.sockets id
  if socket.hasOpened ∧ socket.ready ≠ .closed ∧ socket.attached then
    data.elim s s.dispatch
  else s

def step (s : GlobalWsManager) : WsEvent → GlobalWsManager
  | .subscribe .fs projectId handler => s.subscribeFs projectId handler
  | .subscribe .git projectId handler => s.subscribeGit projectId handler
  | .unsubscribe index => s.unsubscribe index
  | .serverSwitch => s.serverSwitch
  | .opened id => s.opened id
  | .closed id => s.closed id
  | .message id data => s.message id data
  | .retry c => { s with wire := s.wire.retry c }
  | .subscribeReconnect listener =>
    if listener ∈ s.flag.reconnectListeners then s
    else
      { s with flag :=
        { s.flag with reconnectListeners := s.flag.reconnectListeners ++ [listener] } }
  | .unsubscribeReconnect listener =>
    { s with flag :=
      { s.flag with reconnectListeners := s.flag.reconnectListeners.erase listener } }

end GlobalWsManager

end Flockctl.GlobalWs
