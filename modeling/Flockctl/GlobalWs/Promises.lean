import Flockctl.GlobalWs.Registered
import Flockctl.GlobalWs.Wired
import Flockctl.Transition.Run

/-!
# What the manager promises

The flag, the announced projects, the sockets and the deliveries fit the active subscriptions after
every event, unless a socket whose client was replaced reports to the flag of its successor, or an
unsubscribe function drops a handler that another subscription shares.
-/

namespace Flockctl.GlobalWs

open Collections Encoding

/-- The reconnect listeners are called once for a change of the flag to true after a disconnect. -/
structure CountsReconnects (before after : Connectedness) : Prop where
  calls : ∀ listener, after.reconnectCalls.count listener =
    before.reconnectCalls.count listener +
      if before.connected = false ∧ after.connected = true ∧ before.hasDisconnected = true ∧
        listener ∈ before.reconnectListeners then 1 else 0
  hasDisconnected : after.hasDisconnected = true ↔
    before.hasDisconnected = true ∨ before.connected = true ∧ after.connected = false

namespace GlobalWsManager

variable (s : GlobalWsManager)

/-- What is promised of the manager between two events. -/
structure KeepsPromises (s : GlobalWsManager) : Prop where
  connected : s.flag.connected = true ↔ s.wire.IsOpen
  announced : ∀ topic projectId handler, s.registry.Registered topic projectId handler →
    ∀ id, s.wire.current = some id → (s.wire.sockets id).ready = .open →
      projectId ∈ (s.wire.sockets id).announced
  single : ∀ first second, s.wire.IsLive first → s.wire.IsLive second → first = second
  idle : (∀ topic projectId handler, ¬s.registry.Registered topic projectId handler) →
    (∀ id, ¬s.wire.IsLive id) ∧ ∀ c, (s.wire.clients c).retryTimer = false
  delivers : ∀ data topic projectId, topicOf data = some (topic, projectId) →
    ∃ handlers : List ℕ, handlers.Nodup ∧
      (∀ handler, handler ∈ handlers ↔ s.registry.Registered topic projectId handler) ∧
      (s.dispatch data).delivered = s.delivered ++ handlers.map ((·, data))

/-- A socket of another client than the manager's has still its handlers. -/
def IsReplaced (id : ℕ) : Prop :=
  (s.wire.sockets id).attached = true ∧ s.wire.current ≠ some id

/-- A replaced socket does not close while the current one is open, or open while it is not, and no
subscription ends that shares its handler. -/
def IsOrderly (s : GlobalWsManager) : WsEvent → Prop
  | .closed id => (s.wire.sockets id).ready ≠ .closed → s.IsReplaced id → ¬s.wire.IsOpen
  | .opened id => s.wire.mayOpen id = true → s.IsReplaced id → s.wire.IsOpen
  | .unsubscribe index => ∀ subscription, s.registry.subscriptions[index]? = some subscription →
      subscription.active = true → ¬s.registry.IsShared index subscription
  | _ => True

structure Kept (s : GlobalWsManager) : Prop where
  wired : s.wire.Wired
  counted : s.registry.Counted
  connected : s.flag.connected = true ↔ s.wire.IsOpen
  announced : ∀ topic projectId handler, s.registry.Registered topic projectId handler →
    ∀ id, s.wire.current = some id → (s.wire.sockets id).ready = .open →
      projectId ∈ (s.wire.sockets id).announced
  idle : s.wire.client = none ↔ s.registry.isIdle = true
  serverUnsub : s.serverUnsub = s.wire.client.isSome
  listeners : s.flag.reconnectListeners.Nodup

variable {s}

theorem kept_empty : Kept {} where
  wired := Wire.wired_empty
  counted := Registry.counted_empty
  connected := iff_of_false (by simp) (Wire.not_isOpen_of_none rfl)
  announced := by
    intro topic projectId handler hregistered
    cases hregistered
  idle := by decide
  serverUnsub := rfl
  listeners := List.nodup_nil

theorem exists_registered_of_busy (hk : s.Kept) (hidle : s.registry.isIdle = false) :
    ∃ topic projectId handler, s.registry.Registered topic projectId handler := by
  by_contra hnone
  push Not at hnone
  have hall : s.registry.isIdle = true := by
    rw [Registry.isIdle_iff hk.counted]
    rintro ⟨topic, projectId, handler, active⟩ hmem
    cases active with
    | false => rfl
    | true => exact absurd hmem (hnone topic projectId handler)
  rw [hidle] at hall
  cases hall

theorem keepsPromises_of_kept (hk : s.Kept) : s.KeepsPromises where
  connected := hk.connected
  announced := hk.announced
  single := fun _ _ hfirst hsecond ↦ Wire.eq_of_isLive hk.wired hfirst hsecond
  idle := by
    intro hnone
    have hidle : s.registry.isIdle = true := by
      by_contra hbusy
      obtain ⟨topic, projectId, handler, hregistered⟩ :=
        exists_registered_of_busy hk (Bool.not_eq_true _ ▸ hbusy)
      exact hnone topic projectId handler hregistered
    exact Wire.not_isLive_of_none hk.wired (hk.idle.mpr hidle)
  delivers := by
    intro data topic projectId htopic
    refine ⟨s.registry.handlersOf topic projectId, hk.counted.nodup topic projectId,
      hk.counted.handlers topic projectId, ?_⟩
    simp only [dispatch, htopic]

/-! ## The flag -/

theorem setConnected_wire (value : Bool) : (s.setConnected value).wire = s.wire := rfl

theorem setConnected_registry (value : Bool) :
    (s.setConnected value).registry = s.registry := rfl

theorem connected_setConnected (flag : Connectedness) (value : Bool) :
    (flag.setConnected value).connected = value := by
  unfold Connectedness.setConnected
  split
  · assumption
  · split
    · rename_i htrue
      exact htrue.symm
    · rename_i hfalse
      exact (Bool.not_eq_true _ ▸ hfalse).symm

theorem reconnectListeners_setConnected (flag : Connectedness) (value : Bool) :
    (flag.setConnected value).reconnectListeners = flag.reconnectListeners := by
  unfold Connectedness.setConnected
  split
  · rfl
  · split <;> rfl

/-- The flag counts what it is told. -/
theorem countsReconnects_setConnected {flag : Connectedness}
    (hnodup : flag.reconnectListeners.Nodup) (value : Bool) :
    CountsReconnects flag (flag.setConnected value) := by
  obtain ⟨connected, hasDisconnected, listeners, calls⟩ := flag
  cases connected <;> cases value
  · constructor <;> simp [Connectedness.setConnected]
  · constructor
    · intro listener
      cases hasDisconnected with
      | false => simp [Connectedness.setConnected]
      | true =>
        simp only [Connectedness.setConnected, Bool.false_eq_true, if_false, if_true,
          List.count_append, true_and]
        rw [List.Nodup.count hnodup]
    · simp [Connectedness.setConnected]
  · constructor <;> simp [Connectedness.setConnected]
  · constructor <;> simp [Connectedness.setConnected]

theorem countsReconnects_refl (flag : Connectedness) : CountsReconnects flag flag := by
  constructor
  · intro listener
    cases hconnected : flag.connected <;> simp
  · cases hconnected : flag.connected <;> simp

/-! ## Keeping the invariant -/

/-- A change of the wire that leaves the current socket open or not, with what was announced. -/
theorem Kept.of_wire (hk : s.Kept) {wire : Wire} (hwired : wire.Wired)
    (hclient : wire.client = s.wire.client) (hopen : wire.IsOpen ↔ s.wire.IsOpen)
    (hannounced : ∀ id, wire.current = some id → (wire.sockets id).ready = .open →
      s.wire.current = some id ∧ (s.wire.sockets id).ready = .open ∧
        ∀ projectId ∈ (s.wire.sockets id).announced, projectId ∈ (wire.sockets id).announced) :
    Kept { s with wire := wire } where
  wired := hwired
  counted := hk.counted
  connected := hk.connected.trans hopen.symm
  announced := by
    intro topic projectId handler hregistered id hcurrent hready
    obtain ⟨hcurrent', hready', hmore⟩ := hannounced id hcurrent hready
    exact hmore projectId (hk.announced topic projectId handler hregistered id hcurrent' hready')
  idle := by
    dsimp only
    rw [hclient]
    exact hk.idle
  serverUnsub := by
    dsimp only
    rw [hclient]
    exact hk.serverUnsub
  listeners := hk.listeners

theorem Kept.of_announces (hk : s.Kept) {wire : Wire} (h : s.wire.Announces wire) :
    Kept { s with wire := wire } := by
  apply hk.of_wire (h.wired hk.wired) h.client h.isOpen_iff
  intro id hcurrent hready
  rw [h.current_eq] at hcurrent
  rw [h.ready] at hready
  obtain ⟨more, hmore⟩ := h.sockets id
  refine ⟨hcurrent, hready, ?_⟩
  intro projectId hmem
  rw [hmore]
  exact List.mem_append_left more hmem

theorem Kept.of_leavesCurrent (hk : s.Kept) {wire : Wire} {id : ℕ}
    (h : s.wire.LeavesCurrent wire id) (hid : s.wire.current ≠ some id) :
    Kept { s with wire := wire } := by
  apply hk.of_wire h.wired h.client (h.isOpen_iff hid)
  intro other hcurrent hready
  rw [h.current] at hcurrent
  have hother : other ≠ id := fun heq ↦ hid (heq ▸ hcurrent)
  rw [h.sockets other hother] at hready ⊢
  exact ⟨hcurrent, hready, fun _ hmem ↦ hmem⟩

theorem Kept.setConnected_self (hk : s.Kept) {value : Bool} (hvalue : s.flag.connected = value) :
    (s.setConnected value).Kept := by
  have hsame : s.setConnected value = s := by
    simp [setConnected, Connectedness.setConnected, hvalue]
  exact hsame.symm ▸ hk

/-- A wire that is not open needs no announcement. -/
theorem kept_of_not_isOpen {registry : Registry} {wire : Wire} {flag : Connectedness}
    {serverUnsub : Bool} {delivered : List (ℕ × Json)} (hwired : wire.Wired)
    (hcounted : registry.Counted) (hopen : ¬wire.IsOpen) (hflag : flag.connected = false)
    (hidle : wire.client = none ↔ registry.isIdle = true)
    (hserver : serverUnsub = wire.client.isSome) (hlisteners : flag.reconnectListeners.Nodup) :
    Kept ⟨wire, registry, flag, serverUnsub, delivered⟩ where
  wired := hwired
  counted := hcounted
  connected := iff_of_false (by simp [hflag]) hopen
  announced := fun _ _ _ _ id hcurrent hready ↦ absurd ⟨id, hcurrent, hready⟩ hopen
  idle := hidle
  serverUnsub := hserver
  listeners := hlisteners

/-- A subscription was added to the maps, and its project is announced if it is the first one. -/
theorem kept_subscribe (hk : s.Kept) {registry : Registry} {projectId : ProjectId}
    (hcounted : registry.Counted) (hbusy : registry.isIdle = false)
    (hregistered : ∀ topic other handler, registry.Registered topic other handler →
      (∃ member, s.registry.Registered topic other member) ∨ other = projectId)
    (isFirst : Prop) [Decidable isFirst]
    (hfirst : ¬isFirst → ∃ topic handler, s.registry.Registered topic projectId handler) :
    Kept (if isFirst then { s with registry := registry }.ensureClient.sendSubscribe projectId
      else { s with registry := registry }.ensureClient) := by
  cases hclient : s.wire.client with
  | none =>
    obtain ⟨hwired, hmade, hopen⟩ := Wire.wired_makeClient hk.wired hclient
    have hflag : s.flag.connected = false := by
      rw [← Bool.not_eq_true, hk.connected]
      exact Wire.not_isOpen_of_none hclient
    have hkept : Kept { s with registry := registry }.ensureClient := by
      simp only [ensureClient, hclient, Option.isSome_none, Bool.false_eq_true, if_false]
      apply kept_of_not_isOpen hwired hcounted hopen hflag
      · simp [hmade, hbusy]
      · simp [hmade]
      · exact hk.listeners
    split
    · exact hkept.of_announces (Wire.announces_sendSubscribe projectId)
    · exact hkept
  | some c =>
    have hsame : { s with registry := registry }.ensureClient =
        { s with registry := registry } := by
      simp [ensureClient, hclient]
    rw [hsame]
    have hidle : s.wire.client = none ↔ registry.isIdle = true := by
      simp [hclient, hbusy]
    -- A project that was registered before has been announced on the open socket.
    have hold (topic : Topic) (other : ProjectId) (handler id : ℕ)
        (hmem : registry.Registered topic other handler) (hcurrent : s.wire.current = some id)
        (hready : (s.wire.sockets id).ready = .open) :
        other ∈ (s.wire.sockets id).announced ∨ other = projectId := by
      rcases hregistered topic other handler hmem with ⟨member, hmember⟩ | heq
      · exact Or.inl (hk.announced topic other member hmember id hcurrent hready)
      · exact Or.inr heq
    split
    · have hannounces := Wire.announces_sendSubscribe (w := s.wire) projectId
      constructor
      · exact hannounces.wired hk.wired
      · exact hcounted
      · exact hk.connected.trans hannounces.isOpen_iff.symm
      · intro topic other handler hmem id hcurrent hready
        have hcurrent' : s.wire.current = some id := hannounces.current_eq.symm.trans hcurrent
        have hready' : (s.wire.sockets id).ready = .open := (hannounces.ready id).symm.trans hready
        rcases hold topic other handler id hmem hcurrent' hready' with hannounced | rfl
        · obtain ⟨more, hmore⟩ := hannounces.sockets id
          simp only [sendSubscribe, hmore]
          exact List.mem_append_left more hannounced
        · exact Wire.mem_announced_sendSubscribe hk.wired hcurrent' hready' other
      · simp only [sendSubscribe, hannounces.client]
        exact hidle
      · simp only [sendSubscribe, hannounces.client]
        exact hk.serverUnsub
      · exact hk.listeners
    · rename_i hnot
      obtain ⟨topic, handler, hmem⟩ := hfirst hnot
      constructor
      · exact hk.wired
      · exact hcounted
      · exact hk.connected
      · intro topic' other handler' hmem' id hcurrent hready
        rcases hold topic' other handler' id hmem' hcurrent hready with hannounced | rfl
        · exact hannounced
        · exact hk.announced topic other handler hmem id hcurrent hready
      · exact hidle
      · exact hk.serverUnsub
      · exact hk.listeners

theorem isIdle_of_registered {registry : Registry} (hcounted : registry.Counted) {topic : Topic}
    {projectId : ProjectId} {handler : ℕ} (hmem : registry.Registered topic projectId handler) :
    registry.isIdle = false := by
  rw [← Bool.not_eq_true, Registry.isIdle_iff hcounted]
  intro hnone
  cases hnone _ hmem

theorem kept_subscribeFs (hk : s.Kept) (projectId : ProjectId) (handler : ℕ) :
    (s.subscribeFs projectId handler).Kept := by
  have hcounted := Registry.counted_addFs hk.counted projectId handler
  have hregistered := Registry.registered_append_iff (r := s.registry)
    ⟨.fs, projectId, handler, true⟩ rfl (s.registry.addFs projectId handler) rfl
  have hnew := (hregistered .fs projectId handler).mpr (Or.inr ⟨rfl, rfl, rfl⟩)
  apply kept_subscribe hk hcounted (isIdle_of_registered hcounted hnew)
  · intro topic other member hmem
    rcases (hregistered topic other member).mp hmem with hold | ⟨-, heq, -⟩
    · exact Or.inl ⟨member, hold⟩
    · exact Or.inr heq
  · intro hcount
    rw [hk.counted.refcount] at hcount
    have hpos : s.registry.fsCount projectId ≠ 0 := by
      intro hzero
      simp [hzero] at hcount
    obtain ⟨member, hmem⟩ :=
      (Registry.fsCount_pos_iff projectId).mp (Nat.pos_of_ne_zero hpos)
    exact ⟨.fs, member, hmem⟩

theorem registry_ensureClient : s.ensureClient.registry = s.registry := by
  unfold ensureClient
  split <;> rfl

theorem kept_subscribeGit (hk : s.Kept) (projectId : ProjectId) (handler : ℕ) :
    (s.subscribeGit projectId handler).Kept := by
  have hcounted := Registry.counted_addGit hk.counted projectId handler
  have hregistered := Registry.registered_append_iff (r := s.registry)
    ⟨.git, projectId, handler, true⟩ rfl (s.registry.addGit projectId handler) rfl
  have hnew := (hregistered .git projectId handler).mpr (Or.inr ⟨rfl, rfl, rfl⟩)
  apply kept_subscribe hk hcounted (isIdle_of_registered hcounted hnew)
  · intro topic other member hmem
    rcases (hregistered topic other member).mp hmem with hold | ⟨-, heq, -⟩
    · exact Or.inl ⟨member, hold⟩
    · exact Or.inr heq
  · intro hnot
    have hrefcount : ({ s with registry := s.registry.addGit projectId handler
        }.ensureClient.registry.fsRefcount.get projectId).getD 0 =
          s.registry.fsCount projectId := by
      rw [registry_ensureClient]
      have hget := hk.counted.refcount projectId
      simp only [Registry.addGit, hget]
      split <;> simp_all
    rw [hrefcount] at hnot
    by_cases hhas : s.registry.gitHandlers.has projectId = true
    · obtain ⟨member, hmem⟩ := (Registry.has_gitHandlers_iff hk.counted projectId).mp hhas
      exact ⟨.git, member, hmem⟩
    · have hpos : s.registry.fsCount projectId ≠ 0 := fun hzero ↦ hnot (by simp [hhas, hzero])
      obtain ⟨member, hmem⟩ :=
        (Registry.fsCount_pos_iff projectId).mp (Nat.pos_of_ne_zero hpos)
      exact ⟨.fs, member, hmem⟩

theorem kept_unsubscribe (hk : s.Kept) {index : ℕ} (horderly : s.IsOrderly (.unsubscribe index)) :
    (s.unsubscribe index).Kept := by
  unfold unsubscribe
  cases hget : s.registry.subscriptions[index]? with
  | none => exact hk
  | some subscription =>
    dsimp only
    split
    · rename_i hactive
      have hshared := horderly subscription hget hactive
      have hcounted := Registry.counted_remove hk.counted hget hactive hshared
      have hmem : subscription ∈ s.registry.subscriptions := List.mem_of_getElem? hget
      have hregistered : s.registry.Registered subscription.topic subscription.projectId
          subscription.handler := by
        rw [Registry.Registered, ← hactive]
        exact hmem
      split
      · -- The last subscription ended.
        rename_i hidle
        obtain ⟨hwired, hnone⟩ := Wire.wired_dropClient hk.wired
        apply kept_of_not_isOpen hwired hcounted (Wire.not_isOpen_of_none hnone)
        · exact connected_setConnected _ _
        · exact iff_of_true hnone hidle
        · simp [hnone]
        · rw [reconnectListeners_setConnected]
          exact hk.listeners
      · rename_i hbusy
        have hclient : s.wire.client ≠ none := by
          rw [Ne, hk.idle, isIdle_of_registered hk.counted hregistered]
          simp
        constructor
        · exact hk.wired
        · exact hcounted
        · exact hk.connected
        · intro topic projectId handler hafter id hcurrent hready
          have hretired : (s.registry.retire index).Registered topic projectId handler := by
            rw [Registry.Registered, Registry.subscriptions_remove] at hafter
            exact hafter
          have hbefore := ((Registry.registered_retire_iff hget hshared topic projectId
            handler).mp hretired).1
          exact hk.announced topic projectId handler hbefore id hcurrent hready
        · exact iff_of_false hclient hbusy
        · exact hk.serverUnsub
        · exact hk.listeners
    · exact hk

theorem kept_serverSwitch (hk : s.Kept) : s.serverSwitch.Kept := by
  unfold serverSwitch
  split
  · exact hk
  · rename_i hbusy
    obtain ⟨hwired, hnone⟩ := Wire.wired_dropClient hk.wired
    obtain ⟨hwired', hmade, hopen⟩ := Wire.wired_makeClient hwired hnone
    have hensured : Kept
        (({ s with wire := s.wire.dropClient }.setConnected false).ensureClient) := by
      simp only [ensureClient, setConnected_wire, hnone, Option.isSome_none, Bool.false_eq_true,
        if_false]
      apply kept_of_not_isOpen hwired' hk.counted hopen
      · exact connected_setConnected _ _
      · have hidle : s.registry.isIdle = false := by
          rw [← Bool.not_eq_true]
          exact fun hidle ↦ hbusy (Or.inr hidle)
        simp [hmade, hidle]
      · simp [hmade]
      · dsimp only [setConnected]
        rw [reconnectListeners_setConnected]
        exact hk.listeners
    exact hensured.of_announces (Wire.announces_foldl _)

/-- The current socket opens: everything is announced on it. -/
theorem kept_opened_current (hk : s.Kept) {id : ℕ} (hid : s.wire.current = some id)
    (hopen : s.wire.mayOpen id = true) : (s.opened id).Kept := by
  obtain ⟨hwired, hclient, hcurrent, hready, hattached⟩ :=
    Wire.opened_current hk.wired hid hopen
  have hannounces := Wire.announces_foldl (w := s.wire.opened id) s.registry.projectIds
  simp only [opened, hopen, hattached, if_true, resubscribeAll, setConnected]
  constructor
  · exact hannounces.wired hwired
  · exact hk.counted
  · refine iff_of_true (connected_setConnected _ _) ?_
    exact hannounces.isOpen_iff.mpr ⟨id, hcurrent, hready⟩
  · intro topic projectId handler hregistered other hother _
    have hsame : other = id := by
      rw [hannounces.current_eq, hcurrent] at hother
      exact (Option.some.inj hother).symm
    subst hsame
    apply Wire.mem_announced_foldl hwired hcurrent hready
    exact (Registry.mem_projectIds_iff hk.counted projectId).mpr ⟨topic, handler, hregistered⟩
  · dsimp only
    rw [hannounces.client, hclient]
    exact hk.idle
  · dsimp only
    rw [hannounces.client, hclient]
    exact hk.serverUnsub
  · dsimp only
    rw [reconnectListeners_setConnected]
    exact hk.listeners

theorem kept_opened (hk : s.Kept) {id : ℕ} (horderly : s.IsOrderly (.opened id)) :
    (s.opened id).Kept := by
  by_cases hopen : s.wire.mayOpen id = true
  · by_cases hid : s.wire.current = some id
    · exact kept_opened_current hk hid hopen
    · have hfresh := hk.of_leavesCurrent (Wire.leavesCurrent_opened hk.wired hid hopen) hid
      simp only [opened, hopen, if_true]
      split
      · rename_i hattached
        have hconnected : s.flag.connected = true :=
          hk.connected.mpr (horderly hopen ⟨hattached, hid⟩)
        have hannounced := hfresh.of_announces
          (Wire.announces_foldl (w := s.wire.opened id) s.registry.projectIds)
        exact hannounced.setConnected_self hconnected
      · exact hfresh
  · simp only [opened, hopen]
    exact hk

theorem kept_closed (hk : s.Kept) {id : ℕ} (horderly : s.IsOrderly (.closed id)) :
    (s.closed id).Kept := by
  by_cases hready : (s.wire.sockets id).ready = .closed
  · simp only [closed, hready, if_true]
    exact hk
  · by_cases hid : s.wire.current = some id
    · obtain ⟨hwired, hclient, hopen, hattached⟩ := Wire.closed_current hk.wired hid
      simp only [closed, hready, if_false, hattached, if_true]
      apply kept_of_not_isOpen hwired hk.counted hopen (connected_setConnected _ _)
      · rw [hclient]
        exact hk.idle
      · rw [hclient]
        exact hk.serverUnsub
      · rw [reconnectListeners_setConnected]
        exact hk.listeners
    · have hgone := hk.of_leavesCurrent (Wire.leavesCurrent_closed hk.wired hid hready) hid
      simp only [closed, hready, if_false]
      split
      · rename_i hattached
        have hconnected : s.flag.connected = false := by
          rw [← Bool.not_eq_true, hk.connected]
          exact horderly hready ⟨hattached, hid⟩
        exact hgone.setConnected_self hconnected
      · exact hgone

theorem kept_message (hk : s.Kept) (id : ℕ) (data : Option Json) : (s.message id data).Kept := by
  have hdispatch (frame : Json) : (s.dispatch frame).Kept := by
    unfold dispatch
    split
    · exact hk
    · exact ⟨hk.wired, hk.counted, hk.connected, hk.announced, hk.idle, hk.serverUnsub,
        hk.listeners⟩
  unfold message
  dsimp only
  split
  · cases data with
    | none => exact hk
    | some frame => exact hdispatch frame
  · exact hk

theorem kept_retry (hk : s.Kept) (c : ℕ) : Kept { s with wire := s.wire.retry c } := by
  obtain ⟨hwired, hclient, hopen, hsame⟩ := Wire.wired_retry hk.wired c
  apply hk.of_wire hwired hclient hopen
  intro id hcurrent hready
  obtain ⟨hsocket, hcurrent'⟩ := hsame id hcurrent hready
  rw [hsocket] at hready ⊢
  exact ⟨hcurrent', hready, fun _ hmem ↦ hmem⟩

theorem Kept.of_listeners (hk : s.Kept) {listeners : List ℕ} (hnodup : listeners.Nodup) :
    Kept { s with flag := { s.flag with reconnectListeners := listeners } } :=
  ⟨hk.wired, hk.counted, hk.connected, hk.announced, hk.idle, hk.serverUnsub, hnodup⟩

/-- An orderly event keeps the invariant. -/
theorem kept_step (hk : s.Kept) {event : WsEvent} (horderly : s.IsOrderly event) :
    (s.step event).Kept := by
  cases event with
  | subscribe topic projectId handler =>
    cases topic with
    | fs => exact kept_subscribeFs hk projectId handler
    | git => exact kept_subscribeGit hk projectId handler
  | unsubscribe index => exact kept_unsubscribe hk horderly
  | serverSwitch => exact kept_serverSwitch hk
  | opened id => exact kept_opened hk horderly
  | closed id => exact kept_closed hk horderly
  | message id data => exact kept_message hk id data
  | retry c => exact kept_retry hk c
  | subscribeReconnect listener =>
    simp only [step]
    split
    · exact hk
    · rename_i hnew
      apply hk.of_listeners
      simpa using List.Nodup.concat hnew hk.listeners
  | unsubscribeReconnect listener => exact hk.of_listeners (hk.listeners.erase listener)

/-! ## The other events break a promise -/

/-- A frame about the topic of a project. -/
def frameOf (topic : Topic) (projectId : ProjectId) : Json :=
  match topic with
  | .fs => .object [
      ("kind".toList, .string "fs.changed".toList),
      ("projectId".toList, .string projectId),
      ("path".toList, .string []),
      ("sha".toList, .null),
      ("event".toList, .string "change".toList),
      ("source".toList, .string "agent".toList),
      ("ts".toList, .number ['0'])]
  | .git => .object [
      ("kind".toList, .string "git-status-changed".toList),
      ("projectId".toList, .string projectId),
      ("ts".toList, .number ['0'])]

theorem topicOf_frameOf (topic : Topic) (projectId : ProjectId) :
    topicOf (frameOf topic projectId) = some (topic, projectId) := by
  cases topic <;> rfl

/-- Ending a subscription whose handler another one shares loses that one's frames. -/
theorem not_keepsPromises_unsubscribe (hk : s.Kept) {index : ℕ} {subscription : Subscription}
    (hget : s.registry.subscriptions[index]? = some subscription)
    (hactive : subscription.active = true) (hshared : s.registry.IsShared index subscription) :
    ¬(s.unsubscribe index).KeepsPromises := by
  intro hkeeps
  have hregistry : (s.unsubscribe index).registry =
      (s.registry.retire index).remove subscription := by
    simp only [unsubscribe, hget, hactive, if_true]
    split <;> rfl
  obtain ⟨handlers, -, hhandlers, hdelivered⟩ := hkeeps.delivers
    (frameOf subscription.topic subscription.projectId) _ _ (topicOf_frameOf _ _)
  have hregistered : (s.unsubscribe index).registry.Registered subscription.topic
      subscription.projectId subscription.handler := by
    obtain ⟨other, hother, hget'⟩ := hshared
    rw [hregistry, Registry.Registered, Registry.subscriptions_remove, ← hactive]
    apply List.mem_of_getElem? (i := other)
    simp only [Registry.retire, List.getElem?_modify_ne _ _ hother.symm]
    exact hget'
  have hmem := (hhandlers subscription.handler).mpr hregistered
  simp only [dispatch, topicOf_frameOf, hregistry] at hdelivered
  have hsame := List.append_cancel_left hdelivered
  have hlost := Registry.not_mem_handlersOf_remove hk.counted index subscription
  have hcall : (subscription.handler, frameOf subscription.topic subscription.projectId) ∈
      handlers.map ((·, frameOf subscription.topic subscription.projectId)) :=
    List.mem_map_of_mem hmem
  rw [← hsame] at hcall
  obtain ⟨member, hmember, heq⟩ := List.mem_map.mp hcall
  cases heq
  exact hlost hmember

/-- An event after which the promises are kept was orderly. -/
theorem isOrderly_of_keepsPromises (hk : s.Kept) {event : WsEvent}
    (hkeeps : (s.step event).KeepsPromises) : s.IsOrderly event := by
  cases event with
  | unsubscribe index =>
    intro subscription hget hactive hshared
    exact not_keepsPromises_unsubscribe hk hget hactive hshared hkeeps
  | opened id =>
    intro hopen ⟨hattached, hid⟩
    have hleaves := Wire.leavesCurrent_opened hk.wired hid hopen
    have hannounces := Wire.announces_foldl (w := s.wire.opened id) s.registry.projectIds
    have hstep : s.step (.opened id) =
        ({ s with wire := s.wire.opened id }.resubscribeAll).setConnected true := by
      simp only [step, opened, hopen, hattached, if_true]
    rw [hstep] at hkeeps
    have hnow := hkeeps.connected.mp (connected_setConnected _ _)
    exact (hleaves.isOpen_iff hid).mp (hannounces.isOpen_iff.mp hnow)
  | closed id =>
    intro hready ⟨hattached, hid⟩ hopen
    have hleaves := Wire.leavesCurrent_closed hk.wired hid hready
    have hstep : s.step (.closed id) = { s with wire := s.wire.closed id }.setConnected false := by
      simp only [step, closed, hready, if_false, hattached, if_true]
    rw [hstep] at hkeeps
    have hnow := hkeeps.connected.mpr ((hleaves.isOpen_iff hid).mpr hopen)
    rw [setConnected, connected_setConnected] at hnow
    cases hnow
  | _ => trivial

/-! ## Reconnects -/

/-- An event sets the flag or changes the listeners. -/
theorem flag_step (event : WsEvent) :
    (∃ value, (s.step event).flag = s.flag.setConnected value) ∨
      ∃ listeners, (s.step event).flag = { s.flag with reconnectListeners := listeners } ∧
        (s.flag.reconnectListeners.Nodup → listeners.Nodup) := by
  have hsame (after : GlobalWsManager) (hflag : after.flag = s.flag) :
      (∃ value, after.flag = s.flag.setConnected value) ∨
        ∃ listeners, after.flag = { s.flag with reconnectListeners := listeners } ∧
          (s.flag.reconnectListeners.Nodup → listeners.Nodup) :=
    Or.inr ⟨s.flag.reconnectListeners, hflag, id⟩
  have hensure (manager : GlobalWsManager) : manager.ensureClient.flag = manager.flag := by
    unfold ensureClient
    split <;> rfl
  cases event with
  | subscribe topic projectId handler =>
    apply hsame
    cases topic with
    | fs =>
      simp only [step, subscribeFs]
      split
      · exact hensure _
      · exact hensure _
    | git =>
      simp only [step, subscribeGit]
      split
      · exact hensure _
      · exact hensure _
  | unsubscribe index =>
    simp only [step, unsubscribe]
    cases s.registry.subscriptions[index]? with
    | none => exact hsame s rfl
    | some subscription =>
      dsimp only
      split
      · split
        · exact Or.inl ⟨false, rfl⟩
        · exact hsame _ rfl
      · exact hsame s rfl
  | serverSwitch =>
    simp only [step, serverSwitch]
    split
    · exact hsame s rfl
    · exact Or.inl ⟨false, hensure _⟩
  | opened id =>
    simp only [step, opened]
    split
    · split
      · exact Or.inl ⟨true, rfl⟩
      · exact hsame _ rfl
    · exact hsame s rfl
  | closed id =>
    simp only [step, closed]
    split
    · exact hsame s rfl
    · split
      · exact Or.inl ⟨false, rfl⟩
      · exact hsame _ rfl
  | message id data =>
    apply hsame
    simp only [step, message]
    split
    · cases data with
      | none => rfl
      | some frame =>
        simp only [Option.elim_some, dispatch]
        split <;> rfl
    · rfl
  | retry c => exact hsame _ rfl
  | subscribeReconnect listener =>
    simp only [step]
    split
    · exact hsame s rfl
    · rename_i hnew
      refine Or.inr ⟨s.flag.reconnectListeners ++ [listener], rfl, ?_⟩
      intro hnodup
      simpa using List.Nodup.concat hnew hnodup
  | unsubscribeReconnect listener =>
    exact Or.inr ⟨s.flag.reconnectListeners.erase listener, rfl, fun hnodup ↦ hnodup.erase listener⟩

theorem nodup_listeners_step (hnodup : s.flag.reconnectListeners.Nodup) (event : WsEvent) :
    (s.step event).flag.reconnectListeners.Nodup := by
  rcases flag_step (s := s) event with ⟨value, hflag⟩ | ⟨listeners, hflag, hlisteners⟩
  · rw [hflag, reconnectListeners_setConnected]
    exact hnodup
  · rw [hflag]
    exact hlisteners hnodup

theorem countsReconnects_step (hnodup : s.flag.reconnectListeners.Nodup) (event : WsEvent) :
    CountsReconnects s.flag (s.step event).flag := by
  rcases flag_step (s := s) event with ⟨value, hflag⟩ | ⟨listeners, hflag, -⟩
  · rw [hflag]
    exact countsReconnects_setConnected hnodup value
  · rw [hflag]
    exact ⟨(countsReconnects_refl s.flag).calls, (countsReconnects_refl s.flag).hasDisconnected⟩

/-- The promises hold after each event of a run, and each of its events counts its reconnects. -/
def KeepsAllPromises (events : List WsEvent) : Prop :=
  (∀ before, before <+: events → (Transition.run step {} before).KeepsPromises) ∧
    ∀ before event, before ++ [event] <+: events →
      CountsReconnects (Transition.run step {} before).flag
        ((Transition.run step {} before).step event).flag

theorem countsReconnects_run (events : List WsEvent) (event : WsEvent) :
    CountsReconnects (Transition.run step {} events).flag
      ((Transition.run step {} events).step event).flag := by
  have hstep (s : GlobalWsManager) (other : WsEvent) (hnodup : s.flag.reconnectListeners.Nodup) :
      (s.step other).flag.reconnectListeners.Nodup := nodup_listeners_step hnodup other
  exact countsReconnects_step (Transition.run_preserves hstep List.nodup_nil events) event

/-- The promises are kept exactly by the runs of orderly events. -/
theorem keepsAllPromises_iff (events : List WsEvent) :
    KeepsAllPromises events ↔ Transition.Disciplined step IsOrderly {} events := by
  have hstep (s : GlobalWsManager) (event : WsEvent) (hk : s.Kept)
      (horderly : s.IsOrderly event) : (s.step event).Kept := kept_step hk horderly
  have hgood (s : GlobalWsManager) (hk : s.Kept) : s.KeepsPromises := keepsPromises_of_kept hk
  have hexact (s : GlobalWsManager) (event : WsEvent) (hk : s.Kept)
      (hkeeps : (s.step event).KeepsPromises) : s.IsOrderly event :=
    isOrderly_of_keepsPromises hk hkeeps
  have hstate := Transition.disciplined_iff_good hstep hgood hexact kept_empty events
  rw [KeepsAllPromises, hstate]
  exact and_iff_left fun before event _ ↦ countsReconnects_run before event

/-- A replaced socket that closes after its successor has opened clears the flag. -/
theorem not_keepsAllPromises_serverSwitch :
    ¬KeepsAllPromises [.subscribe .fs "p".toList 0, .opened 0, .serverSwitch, .opened 1,
      .closed 0] := by
  intro hkeeps
  have hnow := (hkeeps.1 _ List.prefix_rfl).connected.mpr ⟨1, by decide +kernel, by decide +kernel⟩
  revert hnow
  decide +kernel

end GlobalWsManager

end Flockctl.GlobalWs
