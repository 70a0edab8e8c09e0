import Flockctl.Transition.Regions
import Mathlib.Data.PNat.Basic
import Mathlib.Data.List.Sort

/-!
# Leader election across the tabs of a browser

What one tab does when it is started or stopped, when its page is unloaded or shown again, when one
of its timers fires and when a message arrives. A handler returns the tab and what it posts to the
channel `flockctl.notifications`, in order. Tab ids are compared only, and the candidates of a claim
are sorted by the same order.
-/

namespace Flockctl.LeaderElection

universe u

def LEADER_DEAD_AFTER_MS : ℕ := 5000

/-- A message carries the id of the tab that posts it. -/
inductive Msg (Id : Type u) : Type u where
  | claim (tabId : Id)
  | heartbeat (tabId : Id)
  | relinquish (tabId : Id)
deriving DecidableEq, Repr

/-- The tab a message is from. -/
def Msg.tabId {Id : Type u} : Msg Id → Id
  | .claim tabId | .heartbeat tabId | .relinquish tabId => tabId

/-- What a tab tells its listeners. -/
inductive RoleEvent where
  | becameLeader
  | becameFollower
deriving DecidableEq, Repr

/-- A tab: a timer is set where its flag is, and `listening` says that the window's `beforeunload`
and `pageshow` events reach it. -/
structure Tab (Id : Type u) : Type u where
  tabId : Id
  channel : Bool := false
  isLeaderFlag : Bool := false
  started : Bool := false
  heartbeatTimer : Bool := false
  deadcheckTimer : Bool := false
  claimTimer : Bool := false
  lastSeenLeaderAt : ℕ := 0
  claimCandidates : List Id := []
  listening : Bool := false
  dispatched : List RoleEvent := []
deriving Repr

/-- A tab, and what it posts. -/
abbrev Posting (Id : Type u) : Type u := Tab Id × List (Msg Id)

namespace Tab

variable {Id : Type u} [LinearOrder Id]

/-- `claimCandidates.add` -/
def addCandidate (tab : Tab Id) (candidate : Id) : Tab Id :=
  { tab with
    claimCandidates :=
      if candidate ∈ tab.claimCandidates then tab.claimCandidates
      else tab.claimCandidates ++ [candidate] }

def attemptClaim (tab : Tab Id) : Posting Id :=
  if !tab.channel then (tab, [])
  else ({ tab with claimCandidates := [tab.tabId], claimTimer := true }, [.claim tab.tabId])

def becomeLeader (tab : Tab Id) : Posting Id :=
  if tab.isLeaderFlag then (tab, [])
  else
    ({ tab with
        isLeaderFlag := true
        heartbeatTimer := tab.channel
        dispatched := tab.dispatched ++ [.becameLeader] },
      if tab.channel then [.heartbeat tab.tabId] else [])

def becomeFollower (tab : Tab Id) : Tab Id :=
  if !tab.isLeaderFlag then tab
  else
    { tab with
      isLeaderFlag := false
      heartbeatTimer := false
      dispatched := tab.dispatched ++ [.becameFollower] }

/-- `[...claimCandidates].sort()[0]` -/
def winner (tab : Tab Id) : Option Id :=
  (tab.claimCandidates.insertionSort (· ≤ ·)).head?

def decide (tab : Tab Id) : Posting Id :=
  if !tab.started then (tab, [])
  else if tab.winner = some tab.tabId then tab.becomeLeader
  else (tab.becomeFollower, [])

/-- The callback of the claim timer. -/
def claimTimeout (tab : Tab Id) : Posting Id :=
  if tab.claimTimer then Tab.decide { tab with claimTimer := false } else (tab, [])

/-- The callback of the heartbeat timer. -/
def beat (tab : Tab Id) : Posting Id :=
  (tab, if tab.heartbeatTimer ∧ tab.channel then [.heartbeat tab.tabId] else [])

/-- The callback of the dead-check timer. -/
def deadcheck (tab : Tab Id) (now : ℕ+) : Posting Id :=
  if !tab.deadcheckTimer then (tab, [])
  else if tab.isLeaderFlag then (tab, [])
  else if 0 < tab.lastSeenLeaderAt ∧ LEADER_DEAD_AFTER_MS < now - tab.lastSeenLeaderAt then
    attemptClaim { tab with lastSeenLeaderAt := 0 }
  else (tab, [])

/-- A browser without `BroadcastChannel` has one tab, as far as a tab can tell. -/
def start (tab : Tab Id) (broadcastChannel : Bool) : Posting Id :=
  if tab.started then (tab, [])
  else if !broadcastChannel then becomeLeader { tab with started := true }
  else
    let claimed := attemptClaim { tab with started := true, channel := true }
    ({ claimed.1 with deadcheckTimer := true, listening := true }, claimed.2)

def stop (tab : Tab Id) : Posting Id :=
  if !tab.started then (tab, [])
  else
    ({ tab with
        started := false
        heartbeatTimer := false
        deadcheckTimer := false
        claimTimer := false
        isLeaderFlag := false
        channel := false
        listening := false },
      if tab.isLeaderFlag ∧ tab.channel then [.relinquish tab.tabId] else [])

def onUnload (tab : Tab Id) : Posting Id :=
  (tab, if tab.listening ∧ tab.isLeaderFlag ∧ tab.channel then [.relinquish tab.tabId] else [])

def onPageShow (tab : Tab Id) : Posting Id :=
  if tab.listening ∧ tab.started then tab.attemptClaim else (tab, [])

/-- The first half of a heartbeat's handler: an open claim has the leader among its candidates. -/
def heartbeatSeen (tab : Tab Id) (now : ℕ+) (leader : Id) : Tab Id :=
  let seen := { tab with lastSeenLeaderAt := now }
  if seen.claimTimer then seen.addCandidate leader else seen

def onMessage (tab : Tab Id) (now : ℕ+) (msg : Msg Id) : Posting Id :=
  if msg.tabId = tab.tabId then (tab, [])
  else
    match msg with
    | .claim tabId =>
      let tab := tab.addCandidate tabId
      if tab.isLeaderFlag ∧ tabId < tab.tabId then (tab.becomeFollower, [])
      else if tab.isLeaderFlag ∧ tab.channel then (tab, [.heartbeat tab.tabId])
      else (tab, [])
    | .heartbeat tabId =>
      let tab := tab.heartbeatSeen now tabId
      if tab.isLeaderFlag ∧ tabId < tab.tabId then (tab.becomeFollower, []) else (tab, [])
    | .relinquish _ => attemptClaim { tab with lastSeenLeaderAt := 0 }

end Tab

/-- The tabs, and the messages on their way between them. -/
structure Browser (Id : Type u) : Type u where
  tabs : Id → Tab Id
  channels : Transition.Channels Id (Msg Id)

/-- A timer fires when it is set, however late; a message arrives when it is the oldest of its sender
that is on its way to the receiver. `now` is what `Date.now()` returns in the handler. -/
inductive Event (Id : Type u) : Type u where
  | start (id : Id)
  | stop (id : Id)
  | crash (id : Id)
  | beforeunload (id : Id)
  | pageshow (id : Id)
  | claimTimeout (id : Id)
  | heartbeat (id : Id)
  | deadcheck (id : Id) (now : ℕ+)
  | deliver (source target : Id) (now : ℕ+)
deriving Repr

namespace Browser

variable {Id : Type u} [LinearOrder Id]

/-- No tab is started. -/
def initial : Browser Id where
  tabs id := { tabId := id }
  channels := Transition.Channels.empty

/-- The tab has run a handler: what it posts goes to the tabs whose channel is open, and a closed
channel receives nothing. -/
def commit (s : Browser Id) (id : Id) (handled : Posting Id) : Browser Id :=
  let posted := s.channels.post (fun other ↦ (s.tabs other).channel) id handled.2
  { tabs := Function.update s.tabs id handled.1
    channels := if handled.1.channel then posted else posted.disconnect id }

/-- The oldest message from the source is off its way to the target. -/
def taken (s : Browser Id) (source target : Id) : Browser Id :=
  { s with channels := s.channels.take source target }

/-- One event. A tab that crashes is gone with its channel and its timers, and says nothing. -/
def step (s : Browser Id) : Event Id → Browser Id
  | .start id => s.commit id ((s.tabs id).start true)
  | .stop id => s.commit id (s.tabs id).stop
  | .crash id => s.commit id ({ tabId := id }, [])
  | .beforeunload id => s.commit id (s.tabs id).onUnload
  | .pageshow id => s.commit id (s.tabs id).onPageShow
  | .claimTimeout id => s.commit id (s.tabs id).claimTimeout
  | .heartbeat id => s.commit id (s.tabs id).beat
  | .deadcheck id now => s.commit id ((s.tabs id).deadcheck now)
  | .deliver source target now =>
    match (s.channels source target).head? with
    | none => s
    | some msg => (s.taken source target).commit target ((s.tabs target).onMessage now msg)

end Browser

end Flockctl.LeaderElection
