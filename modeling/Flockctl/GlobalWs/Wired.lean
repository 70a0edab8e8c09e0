import Flockctl.GlobalWs.Manager

/-!
# One live socket

At any time the manager has no client, or one that is not disposed and stands with its socket in one
of three phases: it connects, it is open, or it waits for its retry. All other sockets are closing
or closed, and all other clients are disposed and wait for nothing.
-/

namespace Flockctl.GlobalWs

namespace Wire

variable (w : Wire)

/-- The socket is connecting or open. -/
def IsLive (id : ℕ) : Prop :=
  (w.sockets id).ready = .connecting ∨ (w.sockets id).ready = .open

/-- The socket of the manager's client is open. -/
def IsOpen : Prop := ∃ id, w.current = some id ∧ (w.sockets id).ready = .open

/-- The client stands with this socket in one of the three phases. -/
structure Runs (c id : ℕ) : Prop where
  made : c < w.clientCount
  socket_made : id < w.socketCount
  ws : (w.clients c).ws = some id
  disposed : (w.clients c).disposed = false
  owner : (w.sockets id).client = c
  attached : (w.sockets id).attached = true
  phase :
    ((w.clients c).state = .connecting ∧ (w.clients c).retryTimer = false ∧
      (w.sockets id).ready = .connecting) ∨
    ((w.clients c).state = .open ∧ (w.clients c).retryTimer = false ∧
      (w.sockets id).ready = .open) ∨
    ((w.clients c).state = .closed ∧ (w.clients c).retryTimer = true ∧
      (w.sockets id).ready = .closed)

structure Wired (w : Wire) : Prop where
  sockets_fresh : ∀ id, w.socketCount ≤ id → w.sockets id = {}
  clients_fresh : ∀ c, w.clientCount ≤ c → w.clients c = {}
  owner_made : ∀ id, (w.sockets id).attached = true → (w.sockets id).client < w.clientCount
  stale_client : ∀ c, w.client ≠ some c →
    (w.clients c).disposed = true ∧ (w.clients c).retryTimer = false
  stale_socket : ∀ id, w.current ≠ some id →
    ¬w.IsLive id ∧ ((w.sockets id).attached = true → w.client ≠ some (w.sockets id).client)
  runs : ∀ c, w.client = some c → ∃ id, w.Runs c id

variable {w}

theorem wired_empty : Wired {} where
  sockets_fresh := fun _ _ ↦ rfl
  clients_fresh := fun _ _ ↦ rfl
  owner_made := by simp
  stale_client := fun _ _ ↦ ⟨rfl, rfl⟩
  stale_socket := fun _ _ ↦ ⟨by simp [IsLive], by simp⟩
  runs := by simp

theorem current_of_runs {c id : ℕ} (hclient : w.client = some c) (hruns : w.Runs c id) :
    w.current = some id := by
  rw [current, hclient]
  exact hruns.ws

/-- The current socket is that of the current client. -/
theorem exists_runs_of_current (hw : w.Wired) {id : ℕ} (hcurrent : w.current = some id) :
    ∃ c, w.client = some c ∧ w.Runs c id := by
  cases hclient : w.client with
  | none => simp [current, hclient] at hcurrent
  | some c =>
    obtain ⟨other, hruns⟩ := hw.runs c hclient
    have hsame := (current_of_runs hclient hruns).symm.trans hcurrent
    cases hsame
    exact ⟨c, rfl, hruns⟩

/-- Two live sockets are one. -/
theorem eq_of_isLive (hw : w.Wired) {first second : ℕ} (hfirst : w.IsLive first)
    (hsecond : w.IsLive second) : first = second := by
  have hcurrent (id : ℕ) (hlive : w.IsLive id) : w.current = some id := by
    by_contra hne
    exact (hw.stale_socket id hne).1 hlive
  exact Option.some.inj ((hcurrent first hfirst).symm.trans (hcurrent second hsecond))

/-- Without a client, no socket is live and no client retries. -/
theorem not_isLive_of_none (hw : w.Wired) (hclient : w.client = none) :
    (∀ id, ¬w.IsLive id) ∧ ∀ c, (w.clients c).retryTimer = false := by
  have hcurrent : w.current = none := by simp [current, hclient]
  constructor
  · intro id
    exact (hw.stale_socket id (by simp [hcurrent])).1
  · intro c
    exact (hw.stale_client c (by simp [hclient])).2

theorem not_isOpen_of_none (hclient : w.client = none) : ¬w.IsOpen := by
  rintro ⟨id, hcurrent, -⟩
  simp [current, hclient] at hcurrent

/-! ## Announcing -/

/-- Nothing has changed but that more projects were announced on some sockets. -/
structure Announces (w after : Wire) : Prop where
  clients : after.clients = w.clients
  client : after.client = w.client
  clientCount : after.clientCount = w.clientCount
  socketCount : after.socketCount = w.socketCount
  sockets : ∀ id, ∃ more,
    after.sockets id = { w.sockets id with announced := (w.sockets id).announced ++ more }
  fresh : ∀ id, w.current ≠ some id → after.sockets id = w.sockets id

theorem Announces.refl : w.Announces w :=
  ⟨rfl, rfl, rfl, rfl, fun _ ↦ ⟨[], by simp⟩, fun _ _ ↦ rfl⟩

theorem Announces.current_eq {after : Wire} (h : w.Announces after) :
    after.current = w.current := by
  simp only [current, h.client, h.clients]

theorem Announces.trans {middle after : Wire} (h : w.Announces middle)
    (h' : middle.Announces after) : w.Announces after where
  clients := h'.clients.trans h.clients
  client := h'.client.trans h.client
  clientCount := h'.clientCount.trans h.clientCount
  socketCount := h'.socketCount.trans h.socketCount
  sockets := by
    intro id
    obtain ⟨more, hmore⟩ := h.sockets id
    obtain ⟨rest, hrest⟩ := h'.sockets id
    exact ⟨more ++ rest, by rw [hrest, hmore, List.append_assoc]⟩
  fresh := by
    intro id hid
    have hmiddle : middle.current ≠ some id := h.current_eq.symm ▸ hid
    rw [h'.fresh id hmiddle, h.fresh id hid]

theorem Announces.ready {after : Wire} (h : w.Announces after) (id : ℕ) :
    (after.sockets id).ready = (w.sockets id).ready := by
  obtain ⟨more, hmore⟩ := h.sockets id
  rw [hmore]

theorem Announces.isOpen_iff {after : Wire} (h : w.Announces after) :
    after.IsOpen ↔ w.IsOpen := by
  simp only [IsOpen, h.current_eq, h.ready]

theorem Announces.wired {after : Wire} (h : w.Announces after) (hw : w.Wired) : after.Wired where
  sockets_fresh := by
    intro id hid
    rw [h.socketCount] at hid
    have hne : w.current ≠ some id := by
      intro hcurrent
      obtain ⟨c, -, hruns⟩ := exists_runs_of_current hw hcurrent
      exact absurd hruns.socket_made (Nat.not_lt.mpr hid)
    rw [h.fresh id hne]
    exact hw.sockets_fresh id hid
  clients_fresh := by
    rw [h.clientCount, h.clients]
    exact hw.clients_fresh
  owner_made := by
    intro id
    obtain ⟨more, hmore⟩ := h.sockets id
    rw [hmore, h.clientCount]
    exact hw.owner_made id
  stale_client := by
    rw [h.client, h.clients]
    exact hw.stale_client
  stale_socket := by
    intro id hid
    rw [h.current_eq] at hid
    have hstale := hw.stale_socket id hid
    simp only [IsLive, h.fresh id hid, h.client]
    exact hstale
  runs := by
    intro c hc
    rw [h.client] at hc
    obtain ⟨id, hruns⟩ := hw.runs c hc
    obtain ⟨more, hmore⟩ := h.sockets id
    refine ⟨id, ?_⟩
    exact {
      made := h.clientCount ▸ hruns.made
      socket_made := h.socketCount ▸ hruns.socket_made
      ws := h.clients ▸ hruns.ws
      disposed := h.clients ▸ hruns.disposed
      owner := by rw [hmore]; exact hruns.owner
      attached := by rw [hmore]; exact hruns.attached
      phase := by rw [h.clients, hmore]; exact hruns.phase }

theorem announces_sendSubscribe (projectId : ProjectId) :
    w.Announces (w.sendSubscribe projectId) := by
  unfold sendSubscribe
  cases hclient : w.client with
  | none => exact Announces.refl
  | some c =>
    dsimp only
    split
    · cases hws : (w.clients c).ws with
      | none => exact Announces.refl
      | some id =>
        dsimp only
        split
        · refine ⟨rfl, rfl, rfl, rfl, ?_, ?_⟩
          · intro other
            by_cases hother : other = id
            · subst hother
              exact ⟨[projectId], by simp [setSocket]⟩
            · exact ⟨[], by simp [setSocket, Function.update_of_ne hother]⟩
          · intro other hother
            have hne : other ≠ id := by
              rintro rfl
              exact hother (by simp [current, hclient, hws])
            simp [setSocket, Function.update_of_ne hne]
        · exact Announces.refl
    · exact Announces.refl

/-- A project is announced on the open socket. -/
theorem mem_announced_sendSubscribe (hw : w.Wired) {id : ℕ} (hcurrent : w.current = some id)
    (hopen : (w.sockets id).ready = .open) (projectId : ProjectId) :
    projectId ∈ ((w.sendSubscribe projectId).sockets id).announced := by
  obtain ⟨c, hclient, hruns⟩ := exists_runs_of_current hw hcurrent
  have hstate : (w.clients c).state = .open := by
    rcases hruns.phase with hphase | hphase | hphase <;> simp_all
  simp [sendSubscribe, hclient, hstate, hruns.ws, hopen, setSocket]

theorem announces_foldl (projectIds : List ProjectId) :
    w.Announces (projectIds.foldl sendSubscribe w) := by
  induction projectIds generalizing w with
  | nil => exact Announces.refl
  | cons projectId projectIds ih => exact (announces_sendSubscribe projectId).trans ih

/-- Every project of a list is announced on the open socket. -/
theorem mem_announced_foldl (hw : w.Wired) {id : ℕ} (hcurrent : w.current = some id)
    (hopen : (w.sockets id).ready = .open) {projectIds : List ProjectId} {projectId : ProjectId}
    (hmem : projectId ∈ projectIds) :
    projectId ∈ ((projectIds.foldl sendSubscribe w).sockets id).announced := by
  induction projectIds generalizing w with
  | nil => cases hmem
  | cons first projectIds ih =>
    have hannounces := announces_sendSubscribe (w := w) first
    have hwired := hannounces.wired hw
    have hcurrent' := hannounces.current_eq.trans hcurrent
    have hopen' := (hannounces.ready id).trans hopen
    rw [List.foldl_cons]
    rcases List.mem_cons.mp hmem with rfl | hrest
    · obtain ⟨more, hmore⟩ := (announces_foldl (w := w.sendSubscribe projectId)
        projectIds).sockets id
      rw [hmore]
      exact List.mem_append_left _ (mem_announced_sendSubscribe hw hcurrent hopen projectId)
    · exact ih hwired hcurrent' hopen' hrest

/-! ## The manager's client -/

theorem closeSocket_eq (id : ℕ) :
    w.closeSocket id = w.setSocket id { w.sockets id with
      ready := if (w.sockets id).ready = .closed then .closed else .closing } := by
  unfold closeSocket
  split
  · rename_i hclosed
    have hsame : Function.update w.sockets id (w.sockets id) = w.sockets :=
      Function.update_eq_self id w.sockets
    simp only [setSocket, ← hclosed, hsame]
  · rfl

theorem wired_dropClient (hw : w.Wired) :
    w.dropClient.Wired ∧ w.dropClient.client = none := by
  unfold dropClient
  cases hclient : w.client with
  | none => exact ⟨hw, hclient⟩
  | some c =>
    obtain ⟨id, hruns⟩ := hw.runs c hclient
    have hcurrent := current_of_runs hclient hruns
    refine ⟨?_, rfl⟩
    simp only [close, hruns.ws, closeSocket_eq, setClient, setSocket]
    refine ⟨?_, ?_, ?_, ?_, ?_, by simp⟩
    · intro other hother
      have hne : other ≠ id := by
        rintro rfl
        exact absurd hruns.socket_made (Nat.not_lt.mpr hother)
      simp only [Function.update_of_ne hne]
      exact hw.sockets_fresh other hother
    · intro other hother
      have hne : other ≠ c := by
        rintro rfl
        exact absurd hruns.made (Nat.not_lt.mpr hother)
      simp only [Function.update_of_ne hne]
      exact hw.clients_fresh other hother
    · intro other
      by_cases hother : other = id
      · subst hother
        simpa using hw.owner_made other
      · simpa only [Function.update_of_ne hother] using hw.owner_made other
    · intro other _
      by_cases hother : other = c
      · subst hother
        simp
      · simp only [Function.update_of_ne hother]
        refine hw.stale_client other ?_
        rw [hclient]
        exact fun heq ↦ hother (Option.some.inj heq).symm
    · intro other _
      refine ⟨?_, by simp⟩
      simp only [IsLive]
      by_cases hother : other = id
      · subst hother
        simp only [Function.update_self]
        split <;> simp
      · simp only [Function.update_of_ne hother]
        refine (hw.stale_socket other ?_).1
        rw [hcurrent]
        exact fun heq ↦ hother (Option.some.inj heq).symm

/-- A new client connects. -/
theorem wired_makeClient (hw : w.Wired) (hclient : w.client = none) :
    w.makeClient.Wired ∧ w.makeClient.client = some w.clientCount ∧ ¬w.makeClient.IsOpen := by
  have hmake : w.makeClient =
      { sockets := Function.update w.sockets w.socketCount
          { client := w.clientCount, ready := .connecting, attached := true }
        clients := Function.update w.clients w.clientCount
          { ws := some w.socketCount, state := .connecting, disposed := false }
        socketCount := w.socketCount + 1
        clientCount := w.clientCount + 1
        client := some w.clientCount } := by
    simp [makeClient, connect, cleanup, setSocket, Function.update_idem]
  have hnone := not_isLive_of_none hw hclient
  have hruns : Runs w.makeClient w.clientCount w.socketCount := by
    rw [hmake]
    constructor <;> simp
  rw [hmake] at hruns ⊢
  refine ⟨⟨?_, ?_, ?_, ?_, ?_, ?_⟩, rfl, ?_⟩
  · intro other hother
    have hne : other ≠ w.socketCount := by
      dsimp only at hother
      omega
    simp only [Function.update_of_ne hne]
    exact hw.sockets_fresh other (Nat.le_of_succ_le hother)
  · intro other hother
    have hne : other ≠ w.clientCount := by
      dsimp only at hother
      omega
    simp only [Function.update_of_ne hne]
    exact hw.clients_fresh other (Nat.le_of_succ_le hother)
  · intro other hattached
    by_cases hother : other = w.socketCount
    · subst hother
      simp
    · simp only [Function.update_of_ne hother] at hattached ⊢
      exact Nat.lt_succ_of_lt (hw.owner_made other hattached)
  · intro other hother
    have hne : other ≠ w.clientCount := fun heq ↦ hother (heq ▸ rfl)
    simp only [Function.update_of_ne hne]
    exact hw.stale_client other (by simp [hclient])
  · intro other hother
    rw [current_of_runs rfl hruns] at hother
    have hne : other ≠ w.socketCount := fun heq ↦ hother (heq ▸ rfl)
    simp only [IsLive, Function.update_of_ne hne]
    refine ⟨hnone.1 other, ?_⟩
    intro hattached howner
    have hlt := hw.owner_made other hattached
    rw [← Option.some.inj howner] at hlt
    exact Nat.lt_irrefl _ hlt
  · intro c hc
    cases hc
    exact ⟨w.socketCount, hruns⟩
  · rintro ⟨id, hcurrent, hopen⟩
    rw [current_of_runs rfl hruns] at hcurrent
    cases hcurrent
    simp at hopen

/-! ## Events of sockets -/

/-- A socket that is not closed has been made. -/
theorem made_of_ready_ne (hw : w.Wired) {id : ℕ} (hready : (w.sockets id).ready ≠ .closed) :
    id < w.socketCount := by
  by_contra hge
  rw [hw.sockets_fresh id (Nat.not_lt.mp hge)] at hready
  exact hready rfl

/-- A change of a replaced socket that does not revive it. -/
theorem wired_setSocket_of_stale (hw : w.Wired) {id : ℕ} (hid : w.current ≠ some id)
    (hmade : id < w.socketCount) {socket : Socket}
    (hlive : socket.ready ≠ .connecting ∧ socket.ready ≠ .open)
    (hattached : socket.attached = (w.sockets id).attached)
    (howner : socket.client = (w.sockets id).client) : (w.setSocket id socket).Wired where
  sockets_fresh := by
    intro other hother
    have hne : other ≠ id := by
      rintro rfl
      exact absurd hmade (Nat.not_lt.mpr hother)
    simpa only [setSocket, Function.update_of_ne hne] using hw.sockets_fresh other hother
  clients_fresh := hw.clients_fresh
  owner_made := by
    intro other
    by_cases hother : other = id
    · subst hother
      simpa [setSocket, hattached, howner] using hw.owner_made other
    · simpa only [setSocket, Function.update_of_ne hother] using hw.owner_made other
  stale_client := hw.stale_client
  stale_socket := by
    intro other hcurrent
    by_cases hother : other = id
    · subst hother
      have hstale := (hw.stale_socket other hid).2
      refine ⟨?_, ?_⟩
      · simp [IsLive, setSocket, hlive]
      · simpa [setSocket, hattached, howner] using hstale
    · simpa only [IsLive, setSocket, Function.update_of_ne hother] using
        hw.stale_socket other hcurrent
  runs := by
    intro c hc
    obtain ⟨other, hruns⟩ := hw.runs c hc
    have hne : other ≠ id := by
      rintro rfl
      exact hid (current_of_runs hc hruns)
    refine ⟨other, ?_⟩
    have hsocket : (w.setSocket id socket).sockets other = w.sockets other := by
      simp only [setSocket, Function.update_of_ne hne]
    exact {
      made := hruns.made
      socket_made := hruns.socket_made
      ws := hruns.ws
      disposed := hruns.disposed
      owner := by rw [hsocket]; exact hruns.owner
      attached := by rw [hsocket]; exact hruns.attached
      phase := by rw [hsocket]; exact hruns.phase }

theorem current_setClient_of_stale {c : ℕ} (hc : w.client ≠ some c) (client : WebSocketClient) :
    (w.setClient c client).current = w.current := by
  unfold current
  cases hclient : w.client with
  | none => simp [setClient, hclient]
  | some other =>
    have hne : other ≠ c := fun heq ↦ hc (heq ▸ hclient)
    simp [setClient, hclient, Function.update_of_ne hne]

/-- A change of a disposed client that does not revive it. -/
theorem wired_setClient_of_stale (hw : w.Wired) {c : ℕ} (hc : w.client ≠ some c)
    (hmade : c < w.clientCount) {client : WebSocketClient} (hdisposed : client.disposed = true)
    (hretry : client.retryTimer = false) : (w.setClient c client).Wired where
  sockets_fresh := hw.sockets_fresh
  clients_fresh := by
    intro other hother
    have hne : other ≠ c := by
      rintro rfl
      exact absurd hmade (Nat.not_lt.mpr hother)
    simpa only [setClient, Function.update_of_ne hne] using hw.clients_fresh other hother
  owner_made := hw.owner_made
  stale_client := by
    intro other hstale
    by_cases hother : other = c
    · subst hother
      simp [setClient, hdisposed, hretry]
    · simpa only [setClient, Function.update_of_ne hother] using hw.stale_client other hstale
  stale_socket := by
    intro other hcurrent
    rw [current_setClient_of_stale hc] at hcurrent
    exact hw.stale_socket other hcurrent
  runs := by
    intro other hother
    obtain ⟨id, hruns⟩ := hw.runs other hother
    have hne : other ≠ c := fun heq ↦ hc (heq ▸ hother)
    have hclient : (w.setClient c client).clients other = w.clients other := by
      simp only [setClient, Function.update_of_ne hne]
    refine ⟨id, ?_⟩
    exact {
      made := hruns.made
      socket_made := hruns.socket_made
      ws := by rw [hclient]; exact hruns.ws
      disposed := by rw [hclient]; exact hruns.disposed
      owner := hruns.owner
      attached := hruns.attached
      phase := by rw [hclient]; exact hruns.phase }

/-- What a replaced socket leaves as it is. -/
structure LeavesCurrent (w after : Wire) (id : ℕ) : Prop where
  wired : after.Wired
  client : after.client = w.client
  current : after.current = w.current
  sockets : ∀ other ≠ id, after.sockets other = w.sockets other

theorem LeavesCurrent.isOpen_iff {after : Wire} {id : ℕ} (h : w.LeavesCurrent after id)
    (hid : w.current ≠ some id) : after.IsOpen ↔ w.IsOpen := by
  simp only [IsOpen, h.current]
  refine exists_congr fun other ↦ and_congr_right fun hother ↦ ?_
  have hne : other ≠ id := fun heq ↦ hid (heq ▸ hother)
  rw [h.sockets other hne]

/-- A change of a replaced socket and its client that revives neither. -/
theorem leavesCurrent_of_stale (hw : w.Wired) {id : ℕ} (hid : w.current ≠ some id)
    (hmade : id < w.socketCount) {socket : Socket}
    (hlive : socket.ready ≠ .connecting ∧ socket.ready ≠ .open)
    (hattached : socket.attached = (w.sockets id).attached)
    (howner : socket.client = (w.sockets id).client) {client : WebSocketClient}
    (hdisposed : (w.sockets id).attached = true → client.disposed = true)
    (hretry : (w.sockets id).attached = true → client.retryTimer = false) :
    w.LeavesCurrent
      (if (w.sockets id).attached then
        (w.setSocket id socket).setClient (w.sockets id).client client
      else w.setSocket id socket) id := by
  have hset := wired_setSocket_of_stale hw hid hmade hlive hattached howner
  have hsockets : ∀ other ≠ id, (w.setSocket id socket).sockets other = w.sockets other := by
    intro other hother
    simp only [setSocket, Function.update_of_ne hother]
  by_cases hhandlers : (w.sockets id).attached = true
  · rw [if_pos hhandlers]
    have hstale : (w.setSocket id socket).client ≠ some (w.sockets id).client :=
      (hw.stale_socket id hid).2 hhandlers
    exact {
      wired := wired_setClient_of_stale hset hstale (hw.owner_made id hhandlers)
        (hdisposed hhandlers) (hretry hhandlers)
      client := rfl
      current := current_setClient_of_stale hstale client
      sockets := hsockets }
  · rw [if_neg hhandlers]
    exact ⟨hset, rfl, rfl, hsockets⟩

theorem leavesCurrent_opened (hw : w.Wired) {id : ℕ} (hid : w.current ≠ some id)
    (hopen : w.mayOpen id = true) : w.LeavesCurrent (w.opened id) id := by
  have hstale := hw.stale_socket id hid
  have hready : (w.sockets id).ready = .closing := by
    have hnot := hstale.1
    simp only [IsLive, not_or] at hnot
    cases hcase : (w.sockets id).ready with
    | connecting => exact absurd hcase hnot.1
    | «open» => exact absurd hcase hnot.2
    | closing => rfl
    | closed => simp [mayOpen, hcase] at hopen
  have hmade : id < w.socketCount := made_of_ready_ne hw (by simp [hready])
  have hclient (hattached : (w.sockets id).attached = true) :=
    hw.stale_client _ (hstale.2 hattached)
  simp only [opened]
  apply leavesCurrent_of_stale hw hid hmade
  · simp [hready]
  · rfl
  · rfl
  · exact fun hattached ↦ (hclient hattached).1
  · exact fun hattached ↦ (hclient hattached).2

theorem leavesCurrent_closed (hw : w.Wired) {id : ℕ} (hid : w.current ≠ some id)
    (hready : (w.sockets id).ready ≠ .closed) : w.LeavesCurrent (w.closed id) id := by
  have hstale := hw.stale_socket id hid
  have hclient (hattached : (w.sockets id).attached = true) :=
    hw.stale_client _ (hstale.2 hattached)
  simp only [closed]
  apply leavesCurrent_of_stale hw hid (made_of_ready_ne hw hready)
  · simp
  · rfl
  · rfl
  · exact fun hattached ↦ (hclient hattached).1
  · intro hattached
    simp [hclient hattached]

/-- The current socket and its client move to another phase. -/
theorem wired_movePhase (hw : w.Wired) {c id : ℕ} (hclient : w.client = some c)
    (hruns : w.Runs c id) (socket : Socket) (client : WebSocketClient)
    (howner : socket.client = c) (hattached : socket.attached = true)
    (hws : client.ws = some id) (hdisposed : client.disposed = false)
    (hphase :
      (client.state = .connecting ∧ client.retryTimer = false ∧ socket.ready = .connecting) ∨
      (client.state = .open ∧ client.retryTimer = false ∧ socket.ready = .open) ∨
      (client.state = .closed ∧ client.retryTimer = true ∧ socket.ready = .closed)) :
    ((w.setSocket id socket).setClient c client).Wired ∧
      ((w.setSocket id socket).setClient c client).current = some id := by
  have hruns' : ((w.setSocket id socket).setClient c client).Runs c id := by
    constructor
    · exact hruns.made
    · exact hruns.socket_made
    · simpa [setClient] using hws
    · simpa [setClient] using hdisposed
    · simpa [setClient, setSocket] using howner
    · simpa [setClient, setSocket] using hattached
    · simpa [setClient, setSocket] using hphase
  have hcurrent : ((w.setSocket id socket).setClient c client).current = some id :=
    current_of_runs hclient hruns'
  refine ⟨⟨?_, ?_, ?_, ?_, ?_, ?_⟩, hcurrent⟩
  · intro other hother
    have hne : other ≠ id := by
      rintro rfl
      exact absurd hruns.socket_made (Nat.not_lt.mpr hother)
    simpa only [setClient, setSocket, Function.update_of_ne hne] using
      hw.sockets_fresh other hother
  · intro other hother
    have hne : other ≠ c := by
      rintro rfl
      exact absurd hruns.made (Nat.not_lt.mpr hother)
    simpa only [setClient, setSocket, Function.update_of_ne hne] using
      hw.clients_fresh other hother
  · intro other
    by_cases hother : other = id
    · subst hother
      simpa [setClient, setSocket, howner] using fun _ ↦ hruns.made
    · simpa only [setClient, setSocket, Function.update_of_ne hother] using hw.owner_made other
  · intro other hother
    have hne : other ≠ c := fun heq ↦ hother (heq ▸ hclient)
    simpa only [setClient, setSocket, Function.update_of_ne hne] using hw.stale_client other hother
  · intro other hother
    rw [hcurrent] at hother
    have hne : other ≠ id := fun heq ↦ hother (heq ▸ rfl)
    have hstale := hw.stale_socket other (current_of_runs hclient hruns ▸ hother)
    simpa only [IsLive, setClient, setSocket, Function.update_of_ne hne] using hstale
  · intro other hother
    have heq : other = c := Option.some.inj (hother.symm.trans hclient)
    exact ⟨id, heq ▸ hruns'⟩

/-- The current socket opens. -/
theorem opened_current (hw : w.Wired) {id : ℕ} (hid : w.current = some id)
    (hopen : w.mayOpen id = true) :
    (w.opened id).Wired ∧ (w.opened id).client = w.client ∧ (w.opened id).current = some id ∧
      ((w.opened id).sockets id).ready = .open ∧ (w.sockets id).attached = true := by
  obtain ⟨c, hclient, hruns⟩ := exists_runs_of_current hw hid
  have hconnecting : (w.sockets id).ready = .connecting ∧ (w.clients c).retryTimer = false := by
    rcases hruns.phase with ⟨-, hretry, hready⟩ | ⟨-, -, hready⟩ | ⟨-, -, hready⟩
    · exact ⟨hready, hretry⟩
    · simp [mayOpen, hready] at hopen
    · simp [mayOpen, hready] at hopen
  have hopened : w.opened id =
      (w.setSocket id { w.sockets id with ready := .open, hasOpened := true }).setClient c
        { w.clients c with state := .open } := by
    simp only [opened, hruns.attached, hruns.owner, hconnecting.1, if_true]
  rw [hopened]
  obtain ⟨hwired, hcurrent⟩ := wired_movePhase hw hclient hruns
    { w.sockets id with ready := .open, hasOpened := true }
    { w.clients c with state := .open } hruns.owner hruns.attached hruns.ws
    hruns.disposed (Or.inr (Or.inl ⟨rfl, hconnecting.2, rfl⟩))
  exact ⟨hwired, rfl, hcurrent, by simp [setClient, setSocket], hruns.attached⟩

/-- The current socket closes, and its client waits for a retry. -/
theorem closed_current (hw : w.Wired) {id : ℕ} (hid : w.current = some id) :
    (w.closed id).Wired ∧ (w.closed id).client = w.client ∧ ¬(w.closed id).IsOpen ∧
      (w.sockets id).attached = true := by
  obtain ⟨c, hclient, hruns⟩ := exists_runs_of_current hw hid
  have hclosed : w.closed id =
      (w.setSocket id { w.sockets id with ready := .closed }).setClient c
        { w.clients c with state := .closed, retryTimer := true } := by
    simp [closed, hruns.attached, hruns.owner, hruns.disposed]
  rw [hclosed]
  obtain ⟨hwired, hcurrent⟩ := wired_movePhase hw hclient hruns
    { w.sockets id with ready := .closed }
    { w.clients c with state := .closed, retryTimer := true } hruns.owner
    hruns.attached hruns.ws hruns.disposed (Or.inr (Or.inr ⟨rfl, rfl, rfl⟩))
  refine ⟨hwired, rfl, ?_, hruns.attached⟩
  rintro ⟨other, hother, hopen⟩
  rw [hcurrent] at hother
  cases hother
  simp [setClient, setSocket] at hopen

/-- The retry timer of the manager's client makes a new socket. -/
theorem wired_retry (hw : w.Wired) (c : ℕ) :
    (w.retry c).Wired ∧ (w.retry c).client = w.client ∧ ((w.retry c).IsOpen ↔ w.IsOpen) ∧
      ∀ id, (w.retry c).current = some id → ((w.retry c).sockets id).ready = .open →
        (w.retry c).sockets id = w.sockets id ∧ w.current = some id := by
  unfold retry
  split
  · rename_i htimer
    have hclient : w.client = some c := by
      by_contra hstale
      rw [(hw.stale_client c hstale).2] at htimer
      cases htimer
    obtain ⟨id, hruns⟩ := hw.runs c hclient
    have hcurrent := current_of_runs hclient hruns
    have hready : (w.sockets id).ready = .closed := by
      rcases hruns.phase with ⟨-, hretry, -⟩ | ⟨-, hretry, -⟩ | ⟨-, -, hready⟩
      · rw [hretry] at htimer
        cases htimer
      · rw [hretry] at htimer
        cases htimer
      · exact hready
    have hnew : id ≠ w.socketCount := Nat.ne_of_lt hruns.socket_made
    have hconnect : (w.setClient c { w.clients c with retryTimer := false }).connect c =
        { sockets := Function.update
            (Function.update w.sockets id { w.sockets id with attached := false })
            w.socketCount { client := c, ready := .connecting, attached := true }
          clients := Function.update w.clients c
            { ws := some w.socketCount, state := .connecting, disposed := false }
          socketCount := w.socketCount + 1
          clientCount := w.clientCount
          client := w.client } := by
      simp [connect, cleanup, setClient, setSocket, hruns.disposed, hruns.ws, hready]
    have hruns' : Runs ((w.setClient c { w.clients c with retryTimer := false }).connect c) c
        w.socketCount := by
      rw [hconnect]
      constructor <;> simp [hruns.made]
    rw [hconnect] at hruns' ⊢
    have hnow := current_of_runs (by exact hclient) hruns'
    have hclosed : ¬w.IsOpen := by
      rintro ⟨other, hother, hopen⟩
      rw [hcurrent] at hother
      cases hother
      rw [hready] at hopen
      cases hopen
    refine ⟨⟨?_, ?_, ?_, ?_, ?_, ?_⟩, rfl, iff_of_false ?_ hclosed, ?_⟩
    · intro other hother
      have hlt : w.socketCount < other := hother
      have hne : other ≠ w.socketCount := Nat.ne_of_gt hlt
      have hold : other ≠ id := Nat.ne_of_gt (Nat.lt_trans hruns.socket_made hlt)
      simp only [Function.update_of_ne hne, Function.update_of_ne hold]
      exact hw.sockets_fresh other (Nat.le_of_lt hlt)
    · intro other hother
      have hne : other ≠ c := Nat.ne_of_gt (Nat.lt_of_lt_of_le hruns.made hother)
      simp only [Function.update_of_ne hne]
      exact hw.clients_fresh other hother
    · intro other hattached
      by_cases hother : other = w.socketCount
      · subst hother
        simpa using hruns.made
      · by_cases hold : other = id
        · subst hold
          simp [Function.update_of_ne hother] at hattached
        · simp only [Function.update_of_ne hother, Function.update_of_ne hold] at hattached ⊢
          exact hw.owner_made other hattached
    · intro other hother
      have hne : other ≠ c := fun heq ↦ hother (heq ▸ hclient)
      simp only [Function.update_of_ne hne]
      exact hw.stale_client other hother
    · intro other hother
      rw [hnow] at hother
      have hne : other ≠ w.socketCount := fun heq ↦ hother (heq ▸ rfl)
      by_cases hold : other = id
      · subst hold
        simp [IsLive, Function.update_of_ne hne, hready]
      · simp only [IsLive, Function.update_of_ne hne, Function.update_of_ne hold]
        refine hw.stale_socket other ?_
        rw [hcurrent]
        exact fun heq ↦ hold (Option.some.inj heq).symm
    · intro other hother
      have heq : other = c := Option.some.inj (hother.symm.trans hclient)
      exact ⟨w.socketCount, heq ▸ hruns'⟩
    · rintro ⟨other, hother, hopen⟩
      rw [hnow] at hother
      cases hother
      simp at hopen
    · intro other hother hopen
      rw [hnow] at hother
      cases hother
      simp at hopen
  · exact ⟨hw, rfl, Iff.rfl, fun _ hcurrent _ ↦ ⟨rfl, hcurrent⟩⟩

end Wire

end Flockctl.GlobalWs
