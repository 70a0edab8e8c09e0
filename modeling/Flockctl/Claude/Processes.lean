import Flockctl.Collections.JsMap
import Flockctl.Transition.Run

/-!
# The processes of the operating system

A pid names at most one process at a time, and a freed pid may be given to any process that starts
later. A serial number, which no code can see, tells the processes apart that hold one pid at
different times.
-/

namespace Flockctl.Claude

open Collections

abbrev Pid := ℕ
abbrev CallId := ℕ

/-- Whose process it is: a `claude` child that the SDK started for a call, with the session id of
its `--resume` flag, or any other process, to which this daemon may or may not send signals. -/
inductive Owner
  | claude (call : CallId) (resumeId : Option String)
  | other (signalable : Bool)
  deriving DecidableEq, Repr

structure Process where
  owner : Owner
  serial : ℕ
  deriving DecidableEq, Repr

/-- `ClaudeChild`. -/
structure ClaudeChild where
  pid : Pid
  resumeId : Option String
  deriving DecidableEq, Repr

structure ProcessTable where
  processes : JsMap Pid Process := JsMap.empty
  nextSerial : ℕ := 0

namespace ProcessTable

def childOf (entry : Pid × Process) : Option ClaudeChild :=
  match entry.2.owner with
  | .claude _ resumeId => some ⟨entry.1, resumeId⟩
  | .other _ => none

/-- `listClaudeChildren`; the list is empty when `ps` fails. -/
def listClaudeChildren (t : ProcessTable) (psWorks : Bool) : List ClaudeChild :=
  if psWorks then t.processes.entries.filterMap childOf else []

/-- `pidAlive`: `kill -0` also fails on a process that cannot be signalled. -/
def pidAlive (t : ProcessTable) (pid : Pid) : Bool :=
  match t.processes.get pid with
  | none => false
  | some process => process.owner != .other false

/-- A process starts under a free pid. -/
def start (t : ProcessTable) (pid : Pid) (owner : Owner) : ProcessTable :=
  match t.processes.get pid with
  | some _ => t
  | none =>
    { processes := t.processes.set pid ⟨owner, t.nextSerial⟩, nextSerial := t.nextSerial + 1 }

def exit (t : ProcessTable) (pid : Pid) : ProcessTable :=
  { t with processes := t.processes.delete pid }

/-- Serial numbers are handed out in order. -/
def Numbered (t : ProcessTable) : Prop :=
  ∀ pid process, t.processes.get pid = some process → process.serial < t.nextSerial

theorem get_start {t : ProcessTable} {pid other : Pid} {owner : Owner} {process : Process}
    (h : (t.start pid owner).processes.get other = some process) :
    t.processes.get other = some process ∨
      other = pid ∧ t.processes.get pid = none ∧ process = ⟨owner, t.nextSerial⟩ := by
  unfold start at h
  cases hpid : t.processes.get pid with
  | some held =>
    rw [hpid] at h
    exact Or.inl h
  | none =>
    rw [hpid] at h
    dsimp only at h
    by_cases hother : other = pid
    · rw [hother, JsMap.get_set_self] at h
      exact Or.inr ⟨hother, rfl, (Option.some.inj h).symm⟩
    · rw [JsMap.get_set_of_ne _ _ hother] at h
      exact Or.inl h

theorem get_exit {t : ProcessTable} {pid other : Pid} {process : Process}
    (h : (t.exit pid).processes.get other = some process) :
    t.processes.get other = some process :=
  (JsMap.get_delete_eq_some_iff.mp h).2

theorem nextSerial_le_start (t : ProcessTable) (pid : Pid) (owner : Owner) :
    t.nextSerial ≤ (t.start pid owner).nextSerial := by
  unfold start
  split
  · exact Nat.le_refl _
  · exact Nat.le_succ _

theorem Numbered.start {t : ProcessTable} (h : t.Numbered) (pid : Pid) (owner : Owner) :
    (t.start pid owner).Numbered := by
  intro other process hget
  rcases get_start hget with hold | ⟨-, hfree, rfl⟩
  · exact Nat.lt_of_lt_of_le (h other process hold) (nextSerial_le_start t pid owner)
  · simp [ProcessTable.start, hfree]

theorem Numbered.exit {t : ProcessTable} (h : t.Numbered) (pid : Pid) : (t.exit pid).Numbered :=
  fun other process hget ↦ h other process (get_exit hget)

/-- `ps` lists live `claude` children only. -/
theorem owner_of_mem_listClaudeChildren {t : ProcessTable} {psWorks : Bool} {child : ClaudeChild}
    (h : child ∈ t.listClaudeChildren psWorks) :
    ∃ call serial, t.processes.get child.pid = some ⟨.claude call child.resumeId, serial⟩ := by
  unfold listClaudeChildren at h
  split at h
  · obtain ⟨⟨pid, owner, serial⟩, hentry, hchild⟩ := List.mem_filterMap.mp h
    cases owner with
    | other signalable => cases hchild
    | claude call resumeId =>
      cases hchild
      exact ⟨call, serial, (t.processes.mem_entries_iff pid _).mp hentry⟩
  · cases h

/-- A `claude` child can be signalled as long as it lives. -/
theorem pidAlive_of_claude {t : ProcessTable} {pid : Pid} {call : CallId}
    {resumeId : Option String} {serial : ℕ}
    (h : t.processes.get pid = some ⟨.claude call resumeId, serial⟩) : t.pidAlive pid = true := by
  simp [pidAlive, h]

end ProcessTable

end Flockctl.Claude

/-!
# The reaper of `claude` children

The SDK never names the child it starts for a call. A call lists the `claude` children before its
query and again when messages arrive, and takes a single new one for its own. The registry maps a
pid to the time its call ended or was aborted, and a sweep kills the pids whose time is long past.
A sweep waits between `SIGTERM` and `SIGKILL`, so sweeps overlap with everything else.
-/

namespace Flockctl.Claude

open Collections

/-- An entry of `trackedPids`. `stamp` counts the insertions: a running iteration over the map goes
on behind the stamp it has reached, also when entries come and go. -/
structure TrackedPid where
  abortAt : Option ℕ := none
  stamp : ℕ
  deriving DecidableEq, Repr

/-- `streamViaClaudeAgentSDK` and `createAIClient.chat`. -/
inductive CallKind
  | stream
  | chat
  deriving DecidableEq, Repr

/-- A call in flight or gone. `attributed` records the processes it has taken for its child, by pid
and serial number; no code reads it. `retryAt` is the timer of the second `tryDiscover`. -/
structure Call where
  kind : CallKind
  resumeSessionId : Option String := none
  pidsBeforeQuery : List Pid
  ourPid : Option Pid := none
  retryAt : Option ℕ := none
  aborted : Bool := false
  ended : Bool := false
  attributed : List (Pid × ℕ) := []
  deriving DecidableEq, Repr

/-- A `killClaudePid` in progress: it waits until the deadline after `SIGTERM`, and once more after
`SIGKILL`. -/
structure Kill where
  pid : Pid
  deadline : ℕ
  forced : Bool := false
  deriving DecidableEq, Repr

/-- A `reapNow` in progress. -/
structure Sweep where
  graceMs : ℕ
  now : ℕ
  reached : ℕ := 0
  killing : Option Kill := none
  closed : Bool := false
  deriving DecidableEq, Repr

inductive Signal
  | sigterm
  | sigkill
  deriving DecidableEq, Repr

/-- The daemon and its operating system. `sent` records every signal with the process that got
it. -/
structure ReaperState where
  clock : ℕ := 0
  os : ProcessTable := {}
  calls : List Call := []
  trackedPids : JsMap Pid TrackedPid := JsMap.empty
  nextStamp : ℕ := 1
  sweeps : List Sweep := []
  sent : List (Signal × Process) := []

namespace ReaperState

def trackPid (s : ReaperState) (pid : Pid) : ReaperState :=
  if s.trackedPids.has pid then s
  else
    { s with
      trackedPids := s.trackedPids.set pid { stamp := s.nextStamp }
      nextStamp := s.nextStamp + 1 }

/-- `entry.abortAt = Date.now()`, unless it is set already. -/
def stampEntry (clock : ℕ) (entry : TrackedPid) : TrackedPid :=
  match entry.abortAt with
  | some _ => entry
  | none => { entry with abortAt := some clock }

def markAbort (s : ReaperState) (pid : Pid) : ReaperState :=
  { s with trackedPids := s.trackedPids.modify pid (stampEntry s.clock) }

def untrack (s : ReaperState) (pid : Pid) : ReaperState :=
  { s with trackedPids := s.trackedPids.delete pid }

def setCall (s : ReaperState) (c : CallId) (call : Call) : ReaperState :=
  { s with calls := s.calls.set c call }

/-- The filter on `--resume` is there only when the call resumes a session. -/
def matchesResume (resumeSessionId : Option String) (child : ClaudeChild) : Bool :=
  match resumeSessionId with
  | none => true
  | some id => id == "" || child.resumeId == some id

/-- The single new `claude` child, if there is exactly one. -/
def discover (s : ReaperState) (call : Call) (psWorks : Bool) : Option ClaudeChild :=
  match (s.os.listClaudeChildren psWorks).filter fun child ↦
      !call.pidsBeforeQuery.contains child.pid && matchesResume call.resumeSessionId child with
  | [child] => some child
  | _ => none

/-- The record of what a call has taken for its child. -/
def attribution (s : ReaperState) (child : ClaudeChild) : List (Pid × ℕ) :=
  (s.os.processes.get child.pid).toList.map fun process ↦ (child.pid, process.serial)

/-- The discovery in the message loop. -/
def attributeChild (s : ReaperState) (c : CallId) (call : Call) (psWorks : Bool) : ReaperState :=
  match s.discover call psWorks with
  | none => s
  | some child =>
    (s.trackPid child.pid).setCall c
      { call with
        ourPid := some child.pid
        attributed := s.attribution child ++ call.attributed }

/-- `tryDiscover` of an aborted stream. -/
def tryDiscover (s : ReaperState) (c : CallId) (call : Call) (psWorks : Bool) : ReaperState :=
  match s.discover call psWorks with
  | none => s.setCall c call
  | some child =>
    ((s.trackPid child.pid).setCall c
      { call with attributed := s.attribution child ++ call.attributed }).markAbort child.pid

/-- `if (ourPid !== null) markAbort(ourPid)`. -/
def markOwn (s : ReaperState) (call : Call) : ReaperState :=
  match call.ourPid with
  | none => s
  | some pid => s.markAbort pid

/-- The `finally` block of a call. -/
def endCall (s : ReaperState) (c : CallId) (call : Call) : ReaperState :=
  (s.setCall c { call with ended := true }).markOwn call

/-- A call begins: it takes its first listing. A signal that is aborted by then fires no listener
any more. -/
def begin (s : ReaperState) (kind : CallKind) (resumeSessionId : Option String) (aborted : Bool)
    (psWorks : Bool) : ReaperState :=
  { s with
    calls := s.calls ++
      [{ kind := kind
         resumeSessionId := resumeSessionId
         pidsBeforeQuery := (s.os.listClaudeChildren psWorks).map ClaudeChild.pid
         aborted := aborted }] }

/-- The SDK yields a message to a call. Only `chat` looks at the signal here, and throws. -/
def message (s : ReaperState) (c : CallId) (call : Call) (psWorks : Bool) : ReaperState :=
  if call.ended then s
  else if call.kind = .chat ∧ call.aborted then s.endCall c call
  else
    match call.ourPid with
    | some _ => s
    | none => s.attributeChild c call psWorks

/-- The loop of a call is over: a result, an error, or the end of the iterator. -/
def finish (s : ReaperState) (c : CallId) (call : Call) : ReaperState :=
  if call.ended then s else s.endCall c call

/-- The abort signal fires; the listener stays on it after the call has ended. -/
def abort (s : ReaperState) (c : CallId) (call : Call) (psWorks : Bool) : ReaperState :=
  if call.aborted then s
  else
    match call.ourPid with
    | some pid => (s.setCall c { call with aborted := true }).markAbort pid
    | none =>
      match call.kind with
      | .chat => s.setCall c { call with aborted := true }
      | .stream =>
        s.tryDiscover c { call with aborted := true, retryAt := some (s.clock + 1000) } psWorks

/-- The timer of an aborted stream fires. -/
def discoverAgain (s : ReaperState) (c : CallId) (call : Call) (psWorks : Bool) : ReaperState :=
  match call.retryAt with
  | none => s
  | some due =>
    if due ≤ s.clock then s.tryDiscover c { call with retryAt := none } psWorks else s

/-- `process.kill`: whichever process holds the pid gets the signal. -/
def signal (s : ReaperState) (signal : Signal) (pid : Pid) : ReaperState :=
  match s.os.processes.get pid with
  | none => s
  | some process => { s with sent := s.sent ++ [(signal, process)] }

def setSweep (s : ReaperState) (i : ℕ) (sweep : Sweep) : ReaperState :=
  { s with sweeps := s.sweeps.set i sweep }

/-- The next entry of the iteration over `trackedPids`. -/
def nextEntry (s : ReaperState) (sweep : Sweep) : Option (Pid × TrackedPid) :=
  s.trackedPids.entries.find? fun entry ↦ sweep.reached < entry.2.stamp

/-- One round of the loop in `reapNow`, up to the first wait. -/
def visit (s : ReaperState) (i : ℕ) (sweep : Sweep) : ReaperState :=
  if sweep.closed ∨ sweep.killing.isSome then s
  else
    match s.nextEntry sweep with
    | none => s.setSweep i { sweep with closed := true }
    | some (pid, entry) =>
      if s.os.pidAlive pid = false then
        (s.untrack pid).setSweep i { sweep with reached := entry.stamp }
      else
        match entry.abortAt with
        | none => s.setSweep i { sweep with reached := entry.stamp }
        | some abortAt =>
          if sweep.now < abortAt + sweep.graceMs then
            s.setSweep i { sweep with reached := entry.stamp }
          else
            (s.signal .sigterm pid).setSweep i
              { sweep with
                reached := entry.stamp
                killing := some { pid := pid, deadline := s.clock + 1000 } }

/-- A wait inside `killClaudePid` is over. -/
def poll (s : ReaperState) (i : ℕ) (sweep : Sweep) : ReaperState :=
  match sweep.killing with
  | none => s
  | some kill =>
    if s.os.pidAlive kill.pid = false then
      (s.untrack kill.pid).setSweep i { sweep with killing := none }
    else if kill.forced then s.setSweep i { sweep with killing := none }
    else if s.clock < kill.deadline then s
    else
      (s.signal .sigkill kill.pid).setSweep i
        { sweep with killing := some { kill with forced := true } }

end ReaperState

inductive ReaperEvent
  | setClock (now : ℕ)
  | startOther (pid : Pid) (signalable : Bool)
  | startChild (call : CallId) (pid : Pid) (resumeId : Option String)
  | exit (pid : Pid)
  | beginCall (kind : CallKind) (resumeSessionId : Option String) (aborted : Bool) (psWorks : Bool)
  | message (call : CallId) (psWorks : Bool)
  | finish (call : CallId)
  | abort (call : CallId) (psWorks : Bool)
  | discoverAgain (call : CallId) (psWorks : Bool)
  | sweep (graceMs : ℕ)
  | visit (sweep : ℕ)
  | poll (sweep : ℕ)
  deriving DecidableEq, Repr

namespace ReaperState

/-- An event of a call; a call that has not begun has none. -/
def onCall (s : ReaperState) (c : CallId) (change : Call → ReaperState) : ReaperState :=
  match s.calls[c]? with
  | none => s
  | some call => change call

def onSweep (s : ReaperState) (i : ℕ) (change : Sweep → ReaperState) : ReaperState :=
  match s.sweeps[i]? with
  | none => s
  | some sweep => change sweep

def step (s : ReaperState) : ReaperEvent → ReaperState
  | .setClock now => { s with clock := now }
  | .startOther pid signalable => { s with os := s.os.start pid (.other signalable) }
  | .startChild c pid resumeId =>
    s.onCall c fun _ ↦ { s with os := s.os.start pid (.claude c resumeId) }
  | .exit pid => { s with os := s.os.exit pid }
  | .beginCall kind resumeSessionId aborted psWorks =>
    s.begin kind resumeSessionId aborted psWorks
  | .message c psWorks => s.onCall c fun call ↦ s.message c call psWorks
  | .finish c => s.onCall c fun call ↦ s.finish c call
  | .abort c psWorks => s.onCall c fun call ↦ s.abort c call psWorks
  | .discoverAgain c psWorks => s.onCall c fun call ↦ s.discoverAgain c call psWorks
  | .sweep graceMs => { s with sweeps := s.sweeps ++ [{ graceMs := graceMs, now := s.clock }] }
  | .visit i => s.onSweep i fun sweep ↦ s.visit i sweep
  | .poll i => s.onSweep i fun sweep ↦ s.poll i sweep

end ReaperState

end Flockctl.Claude
