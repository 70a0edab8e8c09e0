import Flockctl.Claude.Processes

/-!
# An attributed child stays in the registry

While a process lives that a call has taken for its child, its pid stays in the registry: a sweep
drops a pid only when no process of this daemon holds it. When the call ends it marks the pid, so
the child is dead by then or is marked. This holds of every run.
-/

namespace Flockctl.Claude

open Collections Transition

/-- The call a `claude` child was started for. -/
def Owner.call : Owner → Option CallId
  | .claude call _ => some call
  | .other _ => none

theorem pidAlive_of_call {os : ProcessTable} {pid : Pid} {process : Process}
    (h : os.processes.get pid = some process) (hcall : process.owner.call ≠ none) :
    os.pidAlive pid = true := by
  obtain ⟨owner, serial⟩ := process
  cases owner with
  | claude call resumeId => exact ProcessTable.pidAlive_of_claude h
  | other signalable => exact absurd rfl hcall

/-! ## Registries -/

/-- The entry under a pid that one call has attributed: it is marked, or the call will mark it when
it ends. -/
def Watched (map : JsMap Pid TrackedPid) (call : Call) (pid : Pid) : Prop :=
  ∃ entry ∈ map.get pid, entry.abortAt ≠ none ∨ call.ourPid = some pid ∧ call.ended = false

/-- The later registry has an entry wherever the earlier one has an entry of a live process, and
every mark of the earlier one. -/
def Retains (os : ProcessTable) (map later : JsMap Pid TrackedPid) : Prop :=
  ∀ pid, ∀ entry ∈ map.get pid, os.pidAlive pid = false ∨
    ∃ entry' ∈ later.get pid, entry.abortAt ≠ none → entry'.abortAt ≠ none

theorem Watched.retains {os : ProcessTable} {map later : JsMap Pid TrackedPid} {call : Call}
    {pid : Pid} (h : Watched map call pid) (hlater : Retains os map later)
    (halive : os.pidAlive pid = true) : Watched later call pid := by
  obtain ⟨entry, hentry, hwatched⟩ := h
  rcases hlater pid entry hentry with hdead | ⟨entry', hentry', hmarks⟩
  · rw [halive] at hdead
    cases hdead
  · exact ⟨entry', hentry', hwatched.imp_left hmarks⟩

/-- What one call has attributed were `claude` children, and those that live are watched. -/
structure KeepsCall (os : ProcessTable) (map : JsMap Pid TrackedPid) (call : Call) : Prop where
  serial_lt : ∀ a ∈ call.attributed, a.2 < os.nextSerial
  watched : ∀ a ∈ call.attributed, ∀ process ∈ os.processes.get a.1, process.serial = a.2 →
    process.owner.call ≠ none ∧ Watched map call a.1
  timer : call.retryAt ≠ none → call.aborted = true

namespace KeepsCall

variable {os : ProcessTable} {map : JsMap Pid TrackedPid} {call call' : Call}

theorem retains (h : KeepsCall os map call) {later : JsMap Pid TrackedPid}
    (hlater : Retains os map later) : KeepsCall os later call where
  serial_lt := h.serial_lt
  watched a ha process hprocess hserial := by
    obtain ⟨howner, hwatched⟩ := h.watched a ha process hprocess hserial
    exact ⟨howner, hwatched.retains hlater (pidAlive_of_call hprocess howner)⟩
  timer := h.timer

/-- Processes that are new bear serial numbers no call has recorded. -/
theorem withProcesses (h : KeepsCall os map call) {os' : ProcessTable}
    (hnext : os.nextSerial ≤ os'.nextSerial)
    (hold : ∀ pid, ∀ process ∈ os'.processes.get pid,
      os.processes.get pid = some process ∨ os.nextSerial ≤ process.serial) :
    KeepsCall os' map call where
  serial_lt a ha := Nat.lt_of_lt_of_le (h.serial_lt a ha) hnext
  watched := by
    intro a ha process hprocess hserial
    rcases hold a.1 process hprocess with hsame | hnew
    · exact h.watched a ha process hsame hserial
    · have hlt := h.serial_lt a ha
      omega
  timer := h.timer

/-- A change of a call that keeps its records, as long as what it watched stays watched. -/
theorem change (h : KeepsCall os map call) (hattributed : call'.attributed = call.attributed)
    (hwatched : ∀ pid, Watched map call pid → Watched map call' pid)
    (htimer : call'.retryAt ≠ none → call'.aborted = true) : KeepsCall os map call' where
  serial_lt := hattributed ▸ h.serial_lt
  watched := by
    intro a ha process hprocess hserial
    rw [hattributed] at ha
    obtain ⟨howner, hold⟩ := h.watched a ha process hprocess hserial
    exact ⟨howner, hwatched a.1 hold⟩
  timer := htimer

/-- A call records one more process, which is watched. -/
theorem record (h : KeepsCall os map call) (hnumbered : os.Numbered) {pid : Pid}
    {process : Process} (hprocess : os.processes.get pid = some process)
    (howner : process.owner.call ≠ none) (hwatched : Watched map call pid) :
    KeepsCall os map { call with attributed := (pid, process.serial) :: call.attributed } where
  serial_lt a ha := by
    rcases List.mem_cons.mp ha with rfl | hmem
    · exact hnumbered pid process hprocess
    · exact h.serial_lt a hmem
  watched a ha other hother hserial := by
    rcases List.mem_cons.mp ha with rfl | hmem
    · have hsame : some other = some process := hother.symm.trans hprocess
      cases hsame
      exact ⟨howner, hwatched⟩
    · exact h.watched a hmem other hother hserial
  timer := h.timer

end KeepsCall

namespace ReaperState

variable {s : ReaperState}

/-- Every process that an ended call took for its child is dead or marked for the sweeps. -/
def Reaped (s : ReaperState) : Prop :=
  ∀ (c : CallId), ∀ call ∈ s.calls[c]?, call.ended = true →
    ∀ a ∈ call.attributed, ∀ process ∈ s.os.processes.get a.1, process.serial = a.2 →
      ∃ entry ∈ s.trackedPids.get a.1, entry.abortAt ≠ none

structure Kept (s : ReaperState) : Prop where
  numbered : s.os.Numbered
  calls : ∀ (c : CallId), ∀ call ∈ s.calls[c]?, KeepsCall s.os s.trackedPids call

theorem Kept.reaped (h : s.Kept) : s.Reaped := by
  intro c call hcall hended a ha process hprocess hserial
  obtain ⟨-, entry, hentry, hmarked | ⟨-, hrunning⟩⟩ :=
    (h.calls c call hcall).watched a ha process hprocess hserial
  · exact ⟨entry, hentry, hmarked⟩
  · rw [hended] at hrunning
    cases hrunning

/-! ## What the operations on the registry retain -/

@[simp] theorem os_trackPid (pid : Pid) : (s.trackPid pid).os = s.os := by
  unfold trackPid
  split <;> rfl

@[simp] theorem calls_trackPid (pid : Pid) : (s.trackPid pid).calls = s.calls := by
  unfold trackPid
  split <;> rfl

theorem trackPid_eq (pid : Pid) :
    s.trackPid pid =
      { s with
        trackedPids := (s.trackPid pid).trackedPids, nextStamp := (s.trackPid pid).nextStamp } := by
  unfold trackPid
  split <;> rfl

theorem get_trackPid (pid : Pid) :
    ∃ entry, (s.trackPid pid).trackedPids.get pid = some entry := by
  unfold trackPid
  split
  · next hhas => exact (s.trackedPids.has_eq_true_iff pid).mp hhas
  · exact ⟨_, JsMap.get_set_self _ _ _⟩

theorem get_trackPid_of_some {pid other : Pid} {entry : TrackedPid}
    (h : s.trackedPids.get other = some entry) :
    (s.trackPid pid).trackedPids.get other = some entry := by
  unfold trackPid
  split
  · exact h
  · next hhas =>
    have hother : other ≠ pid := by
      rintro rfl
      exact hhas ((s.trackedPids.has_eq_true_iff other).mpr ⟨entry, h⟩)
    exact (JsMap.get_set_of_ne _ _ hother).trans h

theorem get_markAbort (pid other : Pid) :
    (s.markAbort pid).trackedPids.get other =
      if other = pid then (s.trackedPids.get pid).map (stampEntry s.clock)
      else s.trackedPids.get other :=
  JsMap.get_modify _ _ _ _

theorem abortAt_stampEntry (clock : ℕ) (entry : TrackedPid) :
    (stampEntry clock entry).abortAt ≠ none := by
  unfold stampEntry
  cases habort : entry.abortAt with
  | none => simp
  | some time => simp [habort]

/-- A tracked pid is marked by `markAbort`. -/
theorem marked_markAbort {pid : Pid} (h : ∃ entry, s.trackedPids.get pid = some entry) :
    ∃ entry ∈ (s.markAbort pid).trackedPids.get pid, entry.abortAt ≠ none := by
  obtain ⟨entry, hentry⟩ := h
  refine ⟨stampEntry s.clock entry, ?_, abortAt_stampEntry s.clock entry⟩
  rw [get_markAbort, if_pos rfl, hentry]
  rfl

theorem retains_trackPid (pid : Pid) :
    Retains s.os s.trackedPids (s.trackPid pid).trackedPids :=
  fun _ entry hentry ↦ Or.inr ⟨entry, get_trackPid_of_some hentry, id⟩

theorem retains_markAbort (pid : Pid) :
    Retains s.os s.trackedPids (s.markAbort pid).trackedPids := by
  intro other entry hentry
  rw [Option.mem_def] at hentry
  refine Or.inr ?_
  by_cases hother : other = pid
  · subst hother
    obtain ⟨entry', hentry', hmarked⟩ := marked_markAbort ⟨entry, hentry⟩
    exact ⟨entry', hentry', fun _ ↦ hmarked⟩
  · rw [get_markAbort, if_neg hother]
    exact ⟨entry, hentry, id⟩

theorem retains_untrack {pid : Pid} (hdead : s.os.pidAlive pid = false) :
    Retains s.os s.trackedPids (s.untrack pid).trackedPids := by
  intro other entry hentry
  by_cases hother : other = pid
  · exact Or.inl (hother ▸ hdead)
  · exact Or.inr ⟨entry, (JsMap.get_delete_of_ne _ hother).trans hentry, id⟩

/-! ## Each operation keeps the invariant -/

namespace Kept

theorem trackPid (h : s.Kept) (pid : Pid) : (s.trackPid pid).Kept where
  numbered := by
    rw [os_trackPid]
    exact h.numbered
  calls c call hcall := by
    rw [calls_trackPid] at hcall
    rw [os_trackPid]
    exact (h.calls c call hcall).retains (retains_trackPid pid)

theorem markAbort (h : s.Kept) (pid : Pid) : (s.markAbort pid).Kept where
  numbered := h.numbered
  calls c call hcall := (h.calls c call hcall).retains (retains_markAbort pid)

theorem untrack (h : s.Kept) {pid : Pid} (hdead : s.os.pidAlive pid = false) :
    (s.untrack pid).Kept where
  numbered := h.numbered
  calls c call hcall := (h.calls c call hcall).retains (retains_untrack hdead)

theorem start (h : s.Kept) (pid : Pid) (owner : Owner) :
    Kept { s with os := s.os.start pid owner } where
  numbered := h.numbered.start pid owner
  calls c call hcall := by
    apply (h.calls c call hcall).withProcesses (s.os.nextSerial_le_start pid owner)
    intro other process hprocess
    rcases ProcessTable.get_start hprocess with hsame | ⟨-, -, rfl⟩
    · exact Or.inl hsame
    · exact Or.inr (Nat.le_refl _)

theorem exit (h : s.Kept) (pid : Pid) : Kept { s with os := s.os.exit pid } where
  numbered := h.numbered.exit pid
  calls c call hcall := (h.calls c call hcall).withProcesses (Nat.le_refl _)
    fun _ _ hprocess ↦ Or.inl (ProcessTable.get_exit hprocess)

end Kept

theorem getElem?_setCall {c : CallId} {call : Call} (hcall : s.calls[c]? = some call)
    (call' : Call) (d : CallId) :
    (s.setCall c call').calls[d]? = if d = c then some call' else s.calls[d]? := by
  have hlt : c < s.calls.length := (List.getElem?_eq_some_iff.mp hcall).1
  by_cases hd : d = c
  · rw [if_pos hd, hd]
    exact List.getElem?_set_self hlt
  · rw [if_neg hd]
    exact List.getElem?_set_ne (fun heq ↦ hd heq.symm)

theorem mem_discover {call : Call} {psWorks : Bool} {child : ClaudeChild}
    (h : s.discover call psWorks = some child) :
    ∃ owner serial, s.os.processes.get child.pid =
      some ⟨.claude owner child.resumeId, serial⟩ := by
  unfold discover at h
  split at h
  · next found hfound =>
    cases h
    have hmem : child ∈ [child] := List.mem_singleton.mpr rfl
    rw [← hfound] at hmem
    exact ProcessTable.owner_of_mem_listClaudeChildren (List.mem_of_mem_filter hmem)
  · cases h

theorem attribution_eq {child : ClaudeChild} {process : Process}
    (h : s.os.processes.get child.pid = some process) :
    s.attribution child = [(child.pid, process.serial)] := by
  simp [attribution, h]

namespace Kept

theorem setCall (h : s.Kept) {c : CallId} {call call' : Call} (hcall : s.calls[c]? = some call)
    (hcall' : KeepsCall s.os s.trackedPids call') : (s.setCall c call').Kept where
  numbered := h.numbered
  calls d other hother := by
    rw [getElem?_setCall hcall] at hother
    split at hother
    · rw [Option.mem_some_iff] at hother
      exact hother ▸ hcall'
    · exact h.calls d other hother

theorem begin (h : s.Kept) (kind : CallKind) (resumeSessionId : Option String)
    (aborted psWorks : Bool) : (s.begin kind resumeSessionId aborted psWorks).Kept where
  numbered := h.numbered
  calls d other hother := by
    have hmem : other ∈ (s.begin kind resumeSessionId aborted psWorks).calls :=
      List.mem_of_getElem? hother
    rcases List.mem_append.mp hmem with hold | hnew
    · obtain ⟨c, hc⟩ := List.mem_iff_getElem?.mp hold
      exact h.calls c other hc
    · rw [List.mem_singleton.mp hnew]
      exact
        { serial_lt := fun a ha ↦ nomatch ha
          watched := fun a ha ↦ nomatch ha
          timer := fun hne ↦ absurd rfl hne }

theorem attributeChild (h : s.Kept) {c : CallId} {call : Call} (hcall : s.calls[c]? = some call)
    (hrunning : call.ended = false) (hourPid : call.ourPid = none) (psWorks : Bool) :
    (s.attributeChild c call psWorks).Kept := by
  unfold ReaperState.attributeChild
  cases hfound : s.discover call psWorks with
  | none => exact h
  | some child =>
    obtain ⟨owner, serial, hprocess⟩ := mem_discover hfound
    obtain ⟨entry, hentry⟩ := get_trackPid (s := s) child.pid
    have hkeeps : KeepsCall s.os (s.trackPid child.pid).trackedPids
        { call with ourPid := some child.pid } := by
      refine ((h.calls c call hcall).retains (retains_trackPid child.pid)).change rfl ?_ ?_
      · rintro pid ⟨held, hheld, hmarked | ⟨hpid, -⟩⟩
        · exact ⟨held, hheld, Or.inl hmarked⟩
        · rw [hourPid] at hpid
          cases hpid
      · exact (h.calls c call hcall).timer
    have hrecorded := hkeeps.record h.numbered hprocess (Option.some_ne_none owner)
      ⟨entry, hentry, Or.inr ⟨rfl, hrunning⟩⟩
    dsimp only
    rw [attribution_eq hprocess]
    apply (h.trackPid child.pid).setCall
    · rw [calls_trackPid]
      exact hcall
    · rw [os_trackPid]
      exact hrecorded

/-- `tryDiscover` on a call whose flags have changed. -/
theorem tryDiscover (h : s.Kept) {c : CallId} {call call' : Call} (hcall : s.calls[c]? = some call)
    (hcall' : KeepsCall s.os s.trackedPids call') (psWorks : Bool) :
    (s.tryDiscover c call' psWorks).Kept := by
  unfold ReaperState.tryDiscover
  cases hfound : s.discover call' psWorks with
  | none => exact h.setCall hcall hcall'
  | some child =>
    obtain ⟨owner, serial, hprocess⟩ := mem_discover hfound
    obtain ⟨entry, hentry, hmarked⟩ := marked_markAbort (get_trackPid (s := s) child.pid)
    have hkept := (h.trackPid child.pid).markAbort child.pid
    have hretained : Retains s.os (s.trackPid child.pid).trackedPids
        ((s.trackPid child.pid).markAbort child.pid).trackedPids := by
      have hmark := retains_markAbort (s := s.trackPid child.pid) child.pid
      rwa [os_trackPid] at hmark
    have hkeeps := (hcall'.retains (retains_trackPid child.pid)).retains hretained
    have hrecorded := hkeeps.record h.numbered hprocess (Option.some_ne_none owner)
      ⟨entry, hentry, Or.inl hmarked⟩
    dsimp only
    rw [attribution_eq hprocess]
    -- the record and the mark touch different parts of the state
    change (((s.trackPid child.pid).markAbort child.pid).setCall c _).Kept
    apply hkept.setCall
    · change (s.trackPid child.pid).calls[c]? = some call
      rw [calls_trackPid]
      exact hcall
    · change KeepsCall (s.trackPid child.pid).os _ _
      rw [os_trackPid]
      exact hrecorded

section

variable (h : s.Kept) {c : CallId} {call : Call} (hcall : s.calls[c]? = some call)

include h hcall

/-- The mark is set before the call counts as ended. -/
theorem endCall : (s.endCall c call).Kept := by
  unfold ReaperState.endCall ReaperState.markOwn
  split
  · next hourPid =>
    apply h.setCall hcall
    refine (h.calls c call hcall).change rfl ?_ ?_
    · rintro pid ⟨entry, hentry, hmarked | ⟨hpid, -⟩⟩
      · exact ⟨entry, hentry, Or.inl hmarked⟩
      · rw [hourPid] at hpid
        cases hpid
    · exact (h.calls c call hcall).timer
  · next ours hourPid =>
    change ((s.markAbort ours).setCall c { call with ended := true }).Kept
    apply (h.markAbort ours).setCall hcall
    refine ((h.markAbort ours).calls c call hcall).change rfl ?_ ?_
    · rintro pid ⟨entry, hentry, hmarked | ⟨hpid, -⟩⟩
      · exact ⟨entry, hentry, Or.inl hmarked⟩
      · have heq : ours = pid := Option.some.inj (hourPid.symm.trans hpid)
        subst heq
        rw [Option.mem_def, get_markAbort, if_pos rfl] at hentry
        obtain ⟨before, hbefore, -⟩ := Option.map_eq_some_iff.mp hentry
        obtain ⟨marked, hmem, hne⟩ := marked_markAbort ⟨before, hbefore⟩
        exact ⟨marked, hmem, Or.inl hne⟩
    · exact (h.calls c call hcall).timer

theorem abort (psWorks : Bool) : (s.abort c call psWorks).Kept := by
  have hold := h.calls c call hcall
  unfold ReaperState.abort
  split
  · exact h
  · have hset : (s.setCall c { call with aborted := true }).Kept :=
      h.setCall hcall (hold.change rfl (fun _ hwatched ↦ hwatched) fun _ ↦ rfl)
    split
    · exact hset.markAbort _
    · split
      · exact hset
      · refine h.tryDiscover hcall ?_ psWorks
        exact hold.change rfl (fun _ hwatched ↦ hwatched) fun _ ↦ rfl

theorem discoverAgain (psWorks : Bool) : (s.discoverAgain c call psWorks).Kept := by
  unfold ReaperState.discoverAgain
  split
  · exact h
  · split
    · apply h.tryDiscover hcall
      exact (h.calls c call hcall).change rfl (fun _ hwatched ↦ hwatched) fun hne ↦ absurd rfl hne
    · exact h

theorem message (psWorks : Bool) : (s.message c call psWorks).Kept := by
  unfold ReaperState.message
  split
  · exact h
  · next hrunning =>
    split
    · exact h.endCall hcall
    · cases hourPid : call.ourPid with
      | some pid => exact h
      | none =>
        exact h.attributeChild hcall (Bool.eq_false_iff.mpr hrunning) hourPid psWorks

theorem finish : (s.finish c call).Kept := by
  unfold ReaperState.finish
  split
  · exact h
  · exact h.endCall hcall

end

theorem signal (h : s.Kept) (signal : Signal) (pid : Pid) : (s.signal signal pid).Kept := by
  unfold ReaperState.signal
  split
  · exact h
  · exact ⟨h.numbered, h.calls⟩

theorem setSweep (h : s.Kept) (i : ℕ) (sweep : Sweep) : (s.setSweep i sweep).Kept :=
  ⟨h.numbered, h.calls⟩

theorem visit (h : s.Kept) (i : ℕ) (sweep : Sweep) : (s.visit i sweep).Kept := by
  unfold ReaperState.visit
  split
  · exact h
  · split
    · exact h.setSweep i _
    · split
      · next hdead => exact (h.untrack hdead).setSweep i _
      · split
        · exact h.setSweep i _
        · split
          · exact h.setSweep i _
          · exact (h.signal _ _).setSweep i _

theorem poll (h : s.Kept) (i : ℕ) (sweep : Sweep) : (s.poll i sweep).Kept := by
  unfold ReaperState.poll
  split
  · exact h
  · split
    · next hdead => exact (h.untrack hdead).setSweep i _
    · split
      · exact h.setSweep i _
      · split
        · exact h
        · exact (h.signal _ _).setSweep i _

theorem onCall (h : s.Kept) {c : CallId} {change : Call → ReaperState}
    (hchange : ∀ call, s.calls[c]? = some call → (change call).Kept) :
    (s.onCall c change).Kept := by
  unfold ReaperState.onCall
  cases hcall : s.calls[c]? with
  | none => exact h
  | some call => exact hchange call hcall

theorem onSweep (h : s.Kept) {i : ℕ} {change : Sweep → ReaperState}
    (hchange : ∀ sweep, (change sweep).Kept) : (s.onSweep i change).Kept := by
  unfold ReaperState.onSweep
  cases s.sweeps[i]? with
  | none => exact h
  | some sweep => exact hchange sweep

theorem step (h : s.Kept) (event : ReaperEvent) : (s.step event).Kept := by
  cases event with
  | setClock now => exact ⟨h.numbered, h.calls⟩
  | startOther pid signalable => exact h.start pid _
  | startChild c pid resumeId => exact h.onCall fun _ _ ↦ h.start pid _
  | exit pid => exact h.exit pid
  | beginCall kind resumeSessionId aborted psWorks =>
    exact h.begin kind resumeSessionId aborted psWorks
  | message c psWorks => exact h.onCall fun _ hcall ↦ h.message hcall psWorks
  | finish c => exact h.onCall fun _ hcall ↦ h.finish hcall
  | abort c psWorks => exact h.onCall fun _ hcall ↦ h.abort hcall psWorks
  | discoverAgain c psWorks => exact h.onCall fun _ hcall ↦ h.discoverAgain hcall psWorks
  | sweep graceMs => exact ⟨h.numbered, h.calls⟩
  | visit i => exact h.onSweep fun sweep ↦ h.visit i sweep
  | poll i => exact h.onSweep fun sweep ↦ h.poll i sweep

end Kept

theorem kept_initial : Kept {} where
  numbered pid process hprocess := by cases hprocess
  calls c call hcall := by cases hcall

end ReaperState

end Flockctl.Claude
