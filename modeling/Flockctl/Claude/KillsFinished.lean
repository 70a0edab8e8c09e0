import Flockctl.Claude.Attributed

/-!
# When only children of finished calls are killed

A signal goes to whatever process holds a pid, and what justifies it is older: a call took the only
new child for its own, remembered the pid, and marked it later. Three things break the chain: the
only new child is one of a running sibling, the remembered pid has passed to another process by the
time it is marked, or the pid passes on after it was marked. In a run without the three, every
signal goes to a child of a call that has ended or was aborted.
-/

namespace Flockctl.Claude

open Collections Transition

namespace ReaperState

variable {s : ReaperState}

/-- The call has ended or was aborted. -/
def Finished (s : ReaperState) (c : CallId) : Prop :=
  ∃ call ∈ s.calls[c]?, call.ended = true ∨ call.aborted = true

instance (s : ReaperState) (c : CallId) : Decidable (s.Finished c) :=
  inferInstanceAs (Decidable (∃ call ∈ s.calls[c]?, call.ended = true ∨ call.aborted = true))

/-- The process is the child of a finished call. -/
def OwnerFinished (s : ReaperState) (process : Process) : Prop :=
  ∃ c ∈ process.owner.call, s.Finished c

instance (s : ReaperState) (process : Process) : Decidable (s.OwnerFinished process) :=
  inferInstanceAs (Decidable (∃ c ∈ process.owner.call, s.Finished c))

/-- Every signal went to a child of a call that is finished. -/
def KillsFinished (s : ReaperState) : Prop := ∀ x ∈ s.sent, s.OwnerFinished x.2

instance (s : ReaperState) : Decidable s.KillsFinished :=
  inferInstanceAs (Decidable (∀ x ∈ s.sent, s.OwnerFinished x.2))

/-! ## The condition -/

/-- A free pid that is given out is not marked, and no sweep is waiting on it. -/
def FreshPid (s : ReaperState) (pid : Pid) : Prop :=
  s.os.processes.get pid = none →
    (∀ entry ∈ s.trackedPids.get pid, entry.abortAt = none) ∧
      ∀ sweep ∈ s.sweeps, ∀ kill ∈ sweep.killing, kill.pid ≠ pid

instance (s : ReaperState) (pid : Pid) : Decidable (s.FreshPid pid) :=
  inferInstanceAs (Decidable (s.os.processes.get pid = none →
    (∀ entry ∈ s.trackedPids.get pid, entry.abortAt = none) ∧
      ∀ sweep ∈ s.sweeps, ∀ kill ∈ sweep.killing, kill.pid ≠ pid))

/-- A single new child is one of the call itself or of a finished call. -/
def FindsOwn (s : ReaperState) (c : CallId) (call : Call) (psWorks : Bool) : Prop :=
  ∀ child ∈ s.discover call psWorks, ∀ process ∈ s.os.processes.get child.pid,
    process.owner.call = some c ∨ s.OwnerFinished process

instance (s : ReaperState) (c : CallId) (call : Call) (psWorks : Bool) :
    Decidable (s.FindsOwn c call psWorks) :=
  inferInstanceAs (Decidable (∀ child ∈ s.discover call psWorks,
    ∀ process ∈ s.os.processes.get child.pid,
      process.owner.call = some c ∨ s.OwnerFinished process))

/-- The pid a call remembers, if the registry has it, is free or held by the process the call took
for its child, or by a child of a finished call. -/
def HoldsOwn (s : ReaperState) (call : Call) : Prop :=
  ∀ pid ∈ call.ourPid, s.trackedPids.has pid = true → ∀ process ∈ s.os.processes.get pid,
    (pid, process.serial) ∈ call.attributed ∨ s.OwnerFinished process

instance (s : ReaperState) (call : Call) : Decidable (s.HoldsOwn call) :=
  inferInstanceAs (Decidable (∀ pid ∈ call.ourPid, s.trackedPids.has pid = true →
    ∀ process ∈ s.os.processes.get pid,
      (pid, process.serial) ∈ call.attributed ∨ s.OwnerFinished process))

/-- What a message makes a call do: an aborted chat throws and marks its pid, and a call without a
child looks for it. -/
def MessageSafe (s : ReaperState) (c : CallId) (psWorks : Bool) (call : Call) : Prop :=
  call.ended = false →
    if call.kind = .chat ∧ call.aborted = true then s.HoldsOwn call
    else call.ourPid = none → s.FindsOwn c call psWorks

instance (s : ReaperState) (c : CallId) (psWorks : Bool) (call : Call) :
    Decidable (s.MessageSafe c psWorks call) :=
  inferInstanceAs (Decidable (call.ended = false →
    if call.kind = .chat ∧ call.aborted = true then s.HoldsOwn call
    else call.ourPid = none → s.FindsOwn c call psWorks))

/-- An abort marks the pid of the call, and a stream without a child looks for it. -/
def AbortSafe (s : ReaperState) (c : CallId) (psWorks : Bool) (call : Call) : Prop :=
  call.aborted = false →
    s.HoldsOwn call ∧
      (call.ourPid = none → call.kind = .stream → s.FindsOwn c call psWorks)

instance (s : ReaperState) (c : CallId) (psWorks : Bool) (call : Call) :
    Decidable (s.AbortSafe c psWorks call) :=
  inferInstanceAs (Decidable (call.aborted = false → s.HoldsOwn call ∧
    (call.ourPid = none → call.kind = .stream → s.FindsOwn c call psWorks)))

/-- The condition on a step: a discovery that succeeds finds the call's own child, a mark meets the
process it is meant for, and no pid passes on that is marked or being killed. -/
def Careful (s : ReaperState) : ReaperEvent → Prop
  | .startOther pid _ | .startChild _ pid _ => s.FreshPid pid
  | .message c psWorks => ∀ call ∈ s.calls[c]?, s.MessageSafe c psWorks call
  | .finish c => ∀ call ∈ s.calls[c]?, call.ended = false → s.HoldsOwn call
  | .abort c psWorks => ∀ call ∈ s.calls[c]?, s.AbortSafe c psWorks call
  | .discoverAgain c psWorks =>
    ∀ call ∈ s.calls[c]?, ∀ due ∈ call.retryAt, due ≤ s.clock → s.FindsOwn c call psWorks
  | .setClock _ | .exit _ | .beginCall _ _ _ _ | .sweep _ | .visit _ | .poll _ => True

instance (s : ReaperState) : (event : ReaperEvent) → Decidable (s.Careful event)
  | .startOther pid _ | .startChild _ pid _ => inferInstanceAs (Decidable (s.FreshPid pid))
  | .message c psWorks =>
    inferInstanceAs (Decidable (∀ call ∈ s.calls[c]?, s.MessageSafe c psWorks call))
  | .finish c =>
    inferInstanceAs (Decidable (∀ call ∈ s.calls[c]?, call.ended = false → s.HoldsOwn call))
  | .abort c psWorks =>
    inferInstanceAs (Decidable (∀ call ∈ s.calls[c]?, s.AbortSafe c psWorks call))
  | .discoverAgain c psWorks =>
    inferInstanceAs (Decidable (∀ call ∈ s.calls[c]?, ∀ due ∈ call.retryAt, due ≤ s.clock →
      s.FindsOwn c call psWorks))
  | .setClock _ | .exit _ | .beginCall _ _ _ _ | .sweep _ | .visit _ | .poll _ =>
    inferInstanceAs (Decidable True)

/-! ## The invariant -/

/-- Whoever may be killed belongs to a finished call: what is marked, what is being killed, and
what a call has taken for its child unless it is its own. -/
structure Guarded (s : ReaperState) : Prop where
  attributed : ∀ (c : CallId), ∀ call ∈ s.calls[c]?, ∀ a ∈ call.attributed,
    ∀ process ∈ s.os.processes.get a.1, process.serial = a.2 →
      process.owner.call = some c ∨ s.OwnerFinished process
  marked : ∀ pid, ∀ entry ∈ s.trackedPids.get pid, entry.abortAt ≠ none →
    ∀ process ∈ s.os.processes.get pid, s.OwnerFinished process
  killed : ∀ sweep ∈ s.sweeps, ∀ kill ∈ sweep.killing,
    ∀ process ∈ s.os.processes.get kill.pid, s.OwnerFinished process
  sent : s.KillsFinished

/-- A state in which every finished call is still finished. -/
theorem OwnerFinished.mono {s' : ReaperState} {process : Process} (h : s.OwnerFinished process)
    (hfinished : ∀ c, s.Finished c → s'.Finished c) : s'.OwnerFinished process := by
  obtain ⟨c, hc, hdone⟩ := h
  exact ⟨c, hc, hfinished c hdone⟩

theorem finished_setCall {c : CallId} {call call' : Call} (hcall : s.calls[c]? = some call)
    (hended : call.ended = true → call'.ended = true)
    (haborted : call.aborted = true → call'.aborted = true) (d : CallId) (h : s.Finished d) :
    (s.setCall c call').Finished d := by
  obtain ⟨other, hother, hdone⟩ := h
  unfold Finished
  rw [getElem?_setCall hcall]
  by_cases hd : d = c
  · rw [hd, Option.mem_def, hcall, Option.some_inj] at hother
    subst hother
    rw [if_pos hd]
    exact ⟨call', rfl, hdone.imp hended haborted⟩
  · rw [if_neg hd]
    exact ⟨other, hother, hdone⟩

namespace Guarded

theorem setClock (h : s.Guarded) (now : ℕ) : Guarded { s with clock := now } :=
  ⟨h.attributed, h.marked, h.killed, h.sent⟩

theorem exit (h : s.Guarded) (pid : Pid) : Guarded { s with os := s.os.exit pid } where
  attributed c call hcall a ha process hprocess hserial :=
    h.attributed c call hcall a ha process (ProcessTable.get_exit hprocess) hserial
  marked other entry hentry hmarked process hprocess :=
    h.marked other entry hentry hmarked process (ProcessTable.get_exit hprocess)
  killed sweep hsweep kill hkill process hprocess :=
    h.killed sweep hsweep kill hkill process (ProcessTable.get_exit hprocess)
  sent := h.sent

theorem start (h : s.Guarded) (hkept : s.Kept) {pid : Pid} (hfresh : s.FreshPid pid)
    (owner : Owner) : Guarded { s with os := s.os.start pid owner } where
  attributed c call hcall a ha process hprocess hserial := by
    rcases ProcessTable.get_start hprocess with hold | ⟨-, -, rfl⟩
    · exact h.attributed c call hcall a ha process hold hserial
    · have hlt := (hkept.calls c call hcall).serial_lt a ha
      exact absurd hserial (Nat.ne_of_gt hlt)
  marked other entry hentry hmarked process hprocess := by
    rcases ProcessTable.get_start hprocess with hold | ⟨rfl, hfree, -⟩
    · exact h.marked other entry hentry hmarked process hold
    · exact absurd ((hfresh hfree).1 entry hentry) hmarked
  killed sweep hsweep kill hkill process hprocess := by
    rcases ProcessTable.get_start hprocess with hold | ⟨heq, hfree, -⟩
    · exact h.killed sweep hsweep kill hkill process hold
    · exact absurd heq ((hfresh hfree).2 sweep hsweep kill hkill)
  sent := h.sent

theorem trackPid (h : s.Guarded) (pid : Pid) : (s.trackPid pid).Guarded := by
  unfold ReaperState.trackPid
  split
  · exact h
  · refine ⟨h.attributed, ?_, h.killed, h.sent⟩
    intro other entry hentry hmarked process hprocess
    by_cases hother : other = pid
    · rw [Option.mem_def, hother, JsMap.get_set_self, Option.some_inj] at hentry
      subst hentry
      exact absurd rfl hmarked
    · rw [Option.mem_def, JsMap.get_set_of_ne _ _ hother] at hentry
      exact h.marked other entry hentry hmarked process hprocess

theorem markAbort (h : s.Guarded) {pid : Pid}
    (hpid : s.trackedPids.has pid = true → ∀ process ∈ s.os.processes.get pid,
      s.OwnerFinished process) : (s.markAbort pid).Guarded where
  attributed := h.attributed
  marked other entry hentry hmarked process hprocess := by
    rw [Option.mem_def, get_markAbort] at hentry
    split at hentry
    · next hother =>
      obtain ⟨before, hbefore, -⟩ := Option.map_eq_some_iff.mp hentry
      have hhas := (s.trackedPids.has_eq_true_iff pid).mpr ⟨before, hbefore⟩
      exact hpid hhas process (hother ▸ hprocess)
    · exact h.marked other entry hentry hmarked process hprocess
  killed := h.killed
  sent := h.sent

theorem untrack (h : s.Guarded) (pid : Pid) : (s.untrack pid).Guarded where
  attributed := h.attributed
  marked other entry hentry hmarked process hprocess :=
    h.marked other entry (JsMap.get_delete_eq_some_iff.mp hentry).2 hmarked process hprocess
  killed := h.killed
  sent := h.sent

/-- A change of a call that takes back neither its end nor its abort. -/
theorem setCall (h : s.Guarded) {c : CallId} {call call' : Call} (hcall : s.calls[c]? = some call)
    (hended : call.ended = true → call'.ended = true)
    (haborted : call.aborted = true → call'.aborted = true)
    (hattributed : ∀ a ∈ call'.attributed, ∀ process ∈ s.os.processes.get a.1,
      process.serial = a.2 → process.owner.call = some c ∨ s.OwnerFinished process) :
    (s.setCall c call').Guarded := by
  have hmono := finished_setCall hcall hended haborted
  refine ⟨?_, ?_, ?_, ?_⟩
  · intro d other hother a ha process hprocess hserial
    rw [Option.mem_def, getElem?_setCall hcall] at hother
    split at hother
    · next hd =>
      cases hother
      rw [hd]
      exact (hattributed a ha process hprocess hserial).imp_right fun hdone ↦ hdone.mono hmono
    · exact (h.attributed d other hother a ha process hprocess hserial).imp_right
        fun hdone ↦ hdone.mono hmono
  · intro pid entry hentry hmarked process hprocess
    exact (h.marked pid entry hentry hmarked process hprocess).mono hmono
  · intro sweep hsweep kill hkill process hprocess
    exact (h.killed sweep hsweep kill hkill process hprocess).mono hmono
  · intro x hx
    exact (h.sent x hx).mono hmono

theorem begin (h : s.Guarded) (kind : CallKind) (resumeSessionId : Option String)
    (aborted psWorks : Bool) : (s.begin kind resumeSessionId aborted psWorks).Guarded := by
  have hmono : ∀ c, s.Finished c → (s.begin kind resumeSessionId aborted psWorks).Finished c := by
    rintro c ⟨call, hcall, hdone⟩
    have hlt : c < s.calls.length := (List.getElem?_eq_some_iff.mp hcall).1
    exact ⟨call, (List.getElem?_append_left hlt).trans hcall, hdone⟩
  refine ⟨?_, ?_, ?_, ?_⟩
  · intro c call hcall a ha process hprocess hserial
    by_cases hlt : c < s.calls.length
    · have hold : s.calls[c]? = some call := (List.getElem?_append_left hlt).symm.trans hcall
      exact (h.attributed c call hold a ha process hprocess hserial).imp_right
        fun hdone ↦ hdone.mono hmono
    · have hnew := (List.getElem?_append_right (Nat.le_of_not_lt hlt)).symm.trans hcall
      rw [List.mem_singleton.mp (List.mem_of_getElem? hnew)] at ha
      cases ha
  · intro pid entry hentry hmarked process hprocess
    exact (h.marked pid entry hentry hmarked process hprocess).mono hmono
  · intro sweep hsweep kill hkill process hprocess
    exact (h.killed sweep hsweep kill hkill process hprocess).mono hmono
  · intro x hx
    exact (h.sent x hx).mono hmono

theorem signal (h : s.Guarded) (signal : Signal) {pid : Pid}
    (hpid : ∀ process ∈ s.os.processes.get pid, s.OwnerFinished process) :
    (s.signal signal pid).Guarded := by
  unfold ReaperState.signal
  split
  · exact h
  · next process hprocess =>
    refine ⟨h.attributed, h.marked, h.killed, ?_⟩
    intro x hx
    rcases List.mem_append.mp hx with hold | hnew
    · exact h.sent x hold
    · rw [List.mem_singleton.mp hnew]
      exact hpid process hprocess

theorem signal_eq (signal : Signal) (pid : Pid) :
    s.signal signal pid = { s with sent := (s.signal signal pid).sent } := by
  unfold ReaperState.signal
  split <;> rfl

theorem setSweep (h : s.Guarded) {i : ℕ} {sweep : Sweep}
    (hkilling : ∀ kill ∈ sweep.killing, ∀ process ∈ s.os.processes.get kill.pid,
      s.OwnerFinished process) : (s.setSweep i sweep).Guarded where
  attributed := h.attributed
  marked := h.marked
  killed other hother := by
    rcases List.mem_or_eq_of_mem_set hother with hold | rfl
    · exact h.killed other hold
    · exact hkilling
  sent := h.sent

/-! ## The steps of a call -/

theorem attribution_own {c : CallId} {call : Call} {psWorks : Bool} {child : ClaudeChild}
    (h : s.Guarded) (hcall : s.calls[c]? = some call) {looking : Call}
    (hfound : s.discover looking psWorks = some child) (hown : s.FindsOwn c looking psWorks) :
    ∀ a ∈ s.attribution child ++ call.attributed, ∀ process ∈ s.os.processes.get a.1,
      process.serial = a.2 → process.owner.call = some c ∨ s.OwnerFinished process := by
  intro a ha process hprocess hserial
  rcases List.mem_append.mp ha with hnew | hold
  · obtain ⟨found, -, rfl⟩ := List.mem_map.mp hnew
    exact hown child hfound process hprocess
  · exact h.attributed c call hcall a hold process hprocess hserial

theorem attributeChild (h : s.Guarded) {c : CallId} {call : Call}
    (hcall : s.calls[c]? = some call) {psWorks : Bool} (hown : s.FindsOwn c call psWorks) :
    (s.attributeChild c call psWorks).Guarded := by
  unfold ReaperState.attributeChild
  split
  · exact h
  · next child hfound =>
    have htracked := h.trackPid child.pid
    rw [trackPid_eq] at htracked ⊢
    exact htracked.setCall hcall id id (h.attribution_own hcall hfound hown)

/-- `tryDiscover` of a call that is aborted by then. -/
theorem tryDiscover (h : s.Guarded) {c : CallId} {call call' : Call}
    (hcall : s.calls[c]? = some call) (hended : call.ended = true → call'.ended = true)
    (haborted : call'.aborted = true) (hattributed : call'.attributed = call.attributed)
    {psWorks : Bool} (hown : s.FindsOwn c call' psWorks) :
    (s.tryDiscover c call' psWorks).Guarded := by
  unfold ReaperState.tryDiscover
  split
  · apply h.setCall hcall hended (fun _ ↦ haborted)
    intro a ha
    exact h.attributed c call hcall a (hattributed ▸ ha)
  · next child hfound =>
    have htracked := h.trackPid child.pid
    rw [trackPid_eq] at htracked ⊢
    rw [hattributed]
    refine (htracked.setCall hcall ?_ ?_ ?_).markAbort ?_
    · exact hended
    · exact fun _ ↦ haborted
    · exact h.attribution_own hcall hfound hown
    · intro _ process hprocess
      rcases hown child hfound process hprocess with hc | hdone
      · exact ⟨c, hc, _, (getElem?_setCall hcall _ c).trans (if_pos rfl), Or.inr haborted⟩
      · refine hdone.mono fun d hd ↦ finished_setCall hcall ?_ ?_ d hd
        · exact hended
        · exact fun _ ↦ haborted

/-- A call that finishes marks the pid it remembers. -/
theorem markHeld (h : s.Guarded) {c : CallId} {call call' : Call}
    (hcall : s.calls[c]? = some call) (hended : call.ended = true → call'.ended = true)
    (haborted : call.aborted = true → call'.aborted = true)
    (hdone : call'.ended = true ∨ call'.aborted = true)
    (hattributed : call'.attributed = call.attributed) (hholds : s.HoldsOwn call) {pid : Pid}
    (hpid : call.ourPid = some pid) : ((s.setCall c call').markAbort pid).Guarded := by
  have hset : (s.setCall c call').Guarded := by
    apply h.setCall hcall hended haborted
    intro a ha
    exact h.attributed c call hcall a (hattributed ▸ ha)
  have hmono := finished_setCall hcall hended haborted
  have hfinished : (s.setCall c call').Finished c :=
    ⟨call', (getElem?_setCall hcall call' c).trans (if_pos rfl), hdone⟩
  apply hset.markAbort
  intro hhas process hprocess
  rcases hholds pid hpid hhas process hprocess with hmem | howner
  · rcases h.attributed c call hcall _ hmem process hprocess rfl with hc | howner
    · exact ⟨c, hc, hfinished⟩
    · exact howner.mono hmono
  · exact howner.mono hmono

section

variable (h : s.Guarded) {c : CallId} {call : Call} (hcall : s.calls[c]? = some call)

include h hcall

theorem endCall (hholds : s.HoldsOwn call) : (s.endCall c call).Guarded := by
  unfold ReaperState.endCall ReaperState.markOwn
  split
  · exact h.setCall hcall (fun _ ↦ rfl) id (h.attributed c call hcall)
  · next pid hpid =>
    refine h.markHeld hcall ?_ ?_ ?_ ?_ hholds hpid
    · exact fun _ ↦ rfl
    · exact id
    · exact Or.inl rfl
    · rfl

theorem message {psWorks : Bool} (hsafe : s.MessageSafe c psWorks call) :
    (s.message c call psWorks).Guarded := by
  unfold ReaperState.message
  split
  · exact h
  · next hrunning =>
    have hsafe' := hsafe (Bool.eq_false_iff.mpr hrunning)
    split
    · next hthrows =>
      rw [if_pos hthrows] at hsafe'
      exact h.endCall hcall hsafe'
    · next hgoes =>
      rw [if_neg hgoes] at hsafe'
      split
      · exact h
      · next hpid => exact h.attributeChild hcall (hsafe' hpid)

theorem finish (hsafe : call.ended = false → s.HoldsOwn call) : (s.finish c call).Guarded := by
  unfold ReaperState.finish
  split
  · exact h
  · next hrunning => exact h.endCall hcall (hsafe (Bool.eq_false_iff.mpr hrunning))

theorem abort {psWorks : Bool} (hsafe : s.AbortSafe c psWorks call) :
    (s.abort c call psWorks).Guarded := by
  unfold ReaperState.abort
  split
  · exact h
  · next hrunning =>
    obtain ⟨hholds, hfinds⟩ := hsafe (Bool.eq_false_iff.mpr hrunning)
    split
    · next pid hpid =>
      refine h.markHeld hcall ?_ ?_ ?_ ?_ hholds hpid
      · exact id
      · exact fun _ ↦ rfl
      · exact Or.inr rfl
      · rfl
    · next hpid =>
      split
      · exact h.setCall hcall id (fun _ ↦ rfl) (h.attributed c call hcall)
      · next hkind =>
        refine h.tryDiscover hcall ?_ ?_ ?_ ?_
        · exact id
        · rfl
        · rfl
        · exact hfinds hpid hkind

end

theorem discoverAgain (h : s.Guarded) (hkept : s.Kept) {c : CallId} {call : Call}
    (hcall : s.calls[c]? = some call) {psWorks : Bool}
    (hsafe : ∀ due ∈ call.retryAt, due ≤ s.clock → s.FindsOwn c call psWorks) :
    (s.discoverAgain c call psWorks).Guarded := by
  unfold ReaperState.discoverAgain
  split
  · exact h
  · next due hdue =>
    have haborted : call.aborted = true :=
      (hkept.calls c call hcall).timer (by rw [hdue]; exact Option.some_ne_none due)
    split
    · next hpast =>
      refine h.tryDiscover hcall ?_ ?_ ?_ ?_
      · exact id
      · exact haborted
      · rfl
      · exact hsafe due hdue hpast
    · exact h

/-! ## The steps of a sweep -/

theorem visit (h : s.Guarded) (i : ℕ) {sweep : Sweep} (hsweep : sweep ∈ s.sweeps) :
    (s.visit i sweep).Guarded := by
  have hkilling := h.killed sweep hsweep
  unfold ReaperState.visit
  split
  · exact h
  · split
    · exact h.setSweep hkilling
    · next pid entry hnext =>
      have hentry : s.trackedPids.get pid = some entry :=
        (s.trackedPids.mem_entries_iff pid entry).mp (List.mem_of_find?_eq_some hnext)
      split
      · exact (h.untrack pid).setSweep hkilling
      · split
        · exact h.setSweep hkilling
        · next abortAt habort =>
          split
          · exact h.setSweep hkilling
          · have hmarked : entry.abortAt ≠ none := by
              rw [habort]
              exact Option.some_ne_none abortAt
            have htarget := h.marked pid entry hentry hmarked
            have hsignal := h.signal .sigterm htarget
            rw [signal_eq] at hsignal ⊢
            apply hsignal.setSweep
            rintro kill ⟨rfl⟩
            exact htarget

theorem poll (h : s.Guarded) (i : ℕ) {sweep : Sweep} (hsweep : sweep ∈ s.sweeps) :
    (s.poll i sweep).Guarded := by
  have hkilling := h.killed sweep hsweep
  unfold ReaperState.poll
  split
  · exact h
  · next kill hkill =>
    split
    · exact (h.untrack kill.pid).setSweep fun kill hnone ↦ nomatch hnone
    · split
      · exact h.setSweep fun kill hnone ↦ nomatch hnone
      · split
        · exact h
        · have htarget := hkilling kill hkill
          have hsignal := h.signal .sigkill htarget
          rw [signal_eq] at hsignal ⊢
          apply hsignal.setSweep
          rintro forced ⟨rfl⟩
          exact htarget

end Guarded

/-- A careful step keeps the guard. -/
theorem guarded_step (h : s.Guarded) (hkept : s.Kept) {event : ReaperEvent}
    (hcareful : s.Careful event) : (s.step event).Guarded := by
  have hcall {c : CallId} {change : Call → ReaperState}
      (hchange : ∀ call, s.calls[c]? = some call → (change call).Guarded) :
      (s.onCall c change).Guarded := by
    unfold onCall
    cases hcall : s.calls[c]? with
    | none => exact h
    | some call => exact hchange call hcall
  have hsweep {i : ℕ} {change : Sweep → ReaperState}
      (hchange : ∀ sweep ∈ s.sweeps, (change sweep).Guarded) : (s.onSweep i change).Guarded := by
    unfold onSweep
    cases hsweep : s.sweeps[i]? with
    | none => exact h
    | some sweep => exact hchange sweep (List.mem_of_getElem? hsweep)
  cases event with
  | setClock now => exact h.setClock now
  | startOther pid signalable => exact h.start hkept hcareful _
  | startChild c pid resumeId => exact hcall fun _ _ ↦ h.start hkept hcareful _
  | exit pid => exact h.exit pid
  | beginCall kind resumeSessionId aborted psWorks =>
    exact h.begin kind resumeSessionId aborted psWorks
  | message c psWorks => exact hcall fun call hc ↦ h.message hc (hcareful call hc)
  | finish c => exact hcall fun call hc ↦ h.finish hc (hcareful call hc)
  | abort c psWorks => exact hcall fun call hc ↦ h.abort hc (hcareful call hc)
  | discoverAgain c psWorks =>
    exact hcall fun call hc ↦ h.discoverAgain hkept hc (hcareful call hc)
  | sweep graceMs =>
    refine ⟨h.attributed, h.marked, ?_, h.sent⟩
    intro sweep hmem
    rcases List.mem_append.mp hmem with hold | hnew
    · exact h.killed sweep hold
    · rw [List.mem_singleton.mp hnew]
      exact fun kill hnone ↦ nomatch hnone
  | visit i => exact hsweep fun sweep hmem ↦ h.visit i hmem
  | poll i => exact hsweep fun sweep hmem ↦ h.poll i hmem

theorem guarded_initial : Guarded {} where
  attributed c call hcall := by cases hcall
  marked pid entry hentry := by cases hentry
  killed sweep hsweep := by cases hsweep
  sent x hx := by cases hx

/-- In every state of a careful run, all signals went to children of finished calls. In every state
of any run, a child that its call had attributed is dead or marked once the call has ended. -/
theorem reaper_kills_finished (events : List ReaperEvent)
    (hevents : Disciplined step Careful {} events) :
    ∀ before, before <+: events →
      (run step {} before).KillsFinished ∧ (run step {} before).Reaped := by
  rintro before ⟨after, rfl⟩
  have hstep (s : ReaperState) (event : ReaperEvent) (h : s.Kept ∧ s.Guarded)
      (hcareful : s.Careful event) : (s.step event).Kept ∧ (s.step event).Guarded :=
    ⟨h.1.step event, guarded_step h.2 h.1 hcareful⟩
  have hstart : Kept {} ∧ Guarded {} := ⟨kept_initial, guarded_initial⟩
  have hboth := run_invariant_before hstep hstart before after hevents
  exact ⟨hboth.2.sent, hboth.1.reaped⟩

/-- A chat gets its child, ends without it being killed, and a sweep kills it. -/
def endsNormally : List ReaperEvent :=
  [.beginCall .chat none false true, .startChild 0 100 none, .message 0 true, .finish 0,
    .setClock 6000, .sweep 5000, .visit 0, .setClock 7000, .poll 0, .exit 100, .poll 0]

theorem reaper_kills_finished_endsNormally :
    (run step {} endsNormally).KillsFinished ∧
      (run step {} endsNormally).sent =
        [(.sigterm, ⟨.claude 0 none, 0⟩), (.sigkill, ⟨.claude 0 none, 0⟩)] :=
  ⟨(reaper_kills_finished endsNormally (by decide +kernel) endsNormally (List.prefix_refl _)).1,
    by decide +kernel⟩

/-- The child of a stream dies at once. By the time the stream is aborted, the child of a chat is
the only new one. -/
def siblingKilled : List ReaperEvent :=
  [.beginCall .stream none false true, .startChild 0 100 none, .exit 100,
    .beginCall .chat none false true, .startChild 1 101 none, .message 1 true, .abort 0 true,
    .setClock 6000, .sweep 5000, .visit 0]

/-- The chat is neither over nor aborted when its child is killed. -/
theorem not_reaper_kills_finished : ¬∀ events : List ReaperEvent,
    ∀ before, before <+: events →
      (run step {} before).KillsFinished ∧ (run step {} before).Reaped := by
  intro h
  have hkills := (h siblingKilled siblingKilled (List.prefix_refl _)).1
  revert hkills
  decide +kernel

end ReaperState

end Flockctl.Claude
