import Flockctl.Chats.Executor

/-!
# One live session per chat

The executor keeps the session of every running turn, no turn takes the session or the claim of
another away, and a chat without a turn in progress is not held, exactly in the runs in which no
turn registers while another session of its chat runs, none unregisters after another has taken the
chat over, and none is left without its `unregister` as the last of its chat.
-/

namespace Flockctl.Chats

open Collections Transition

namespace ChatDaemon

variable (s : ChatDaemon)

/-- Some turn of the chat satisfies a test. -/
def hasTurn (chat : ChatId) (test : TurnId → Turn → Bool) : Bool :=
  s.turns.entries.any fun entry ↦ entry.2.chat == chat && test entry.1 entry.2

/-- A turn of the chat other than the given one is in progress. -/
def othersInProgress (id : TurnId) (chat : ChatId) : Bool :=
  s.hasTurn chat fun other turn ↦ other != id && turn.phase != .ended

/-- Every running session is the one the executor keeps for its chat, no `unregister` has taken
away a session or a claim of another turn, and a chat is held only while a turn of it is in
progress. -/
structure Reachable (s : ChatDaemon) : Prop where
  reachable : ∀ id turn, s.turns.get id = some turn → turn.phase = .running →
    s.executor.sessions.get turn.chat = some id
  takesOwn : ∀ removal ∈ s.removals,
    (∀ session, removal.session = some session → session = removal.turn) ∧ removal.claims = []
  free : ∀ chat, (∀ id turn, s.turns.get id = some turn → turn.chat = chat →
    turn.phase = .ended) → s.executor.isRunning chat = false

/-- A turn registers while no session of its chat runs. -/
def registersAlone (id : TurnId) : Bool :=
  match s.turns.get id with
  | some ⟨chat, _, .setup, _⟩ => !s.hasTurn chat fun _ turn ↦ turn.phase == .running
  | _ => true

/-- When a turn unregisters, the executor keeps its session or none for the chat, and no other turn
holds a claim. -/
def unregistersOwn (id : TurnId) : Bool :=
  match s.turns.get id with
  | some ⟨chat, _, .settled, _⟩ =>
    (s.executor.sessions.get chat == none || s.executor.sessions.get chat == some id) &&
      (decide (chat ∉ s.executor.pendingSessions) || s.claimants chat == [])
  | _ => true

/-- The chat is not held, or another turn of it is in progress. -/
def leavesFree (id : TurnId) (chat : ChatId) : Bool :=
  !s.executor.isRunning chat || s.othersInProgress id chat

def setupThrowsFree (id : TurnId) : Bool :=
  match s.turns.get id with
  | some ⟨chat, _, .setup, _⟩ => s.leavesFree id chat
  | _ => true

def parkThrowsFree (id : TurnId) : Bool :=
  match s.turns.get id with
  | some ⟨chat, .stream, .settled, _⟩ => s.leavesFree id chat
  | _ => true

/-- Turns register and unregister without another turn of the chat between, and one that throws
outside of its `try` is not the last in progress of a chat that is held. -/
def keepsReachable : ChatEvent → Bool
  | .register id => s.registersAlone id
  | .unregister id => s.unregistersOwn id
  | .setupThrows id => s.setupThrowsFree id
  | .parkThrows id => s.parkThrowsFree id
  | .start _ _ _ | .settle _ | .cancel _ | .cancelAll | .restart => true

section

variable {s}

theorem hasTurn_eq_true_iff (chat : ChatId) (test : TurnId → Turn → Bool) :
    s.hasTurn chat test = true ↔
      ∃ id turn, s.turns.get id = some turn ∧ turn.chat = chat ∧ test id turn = true := by
  simp only [hasTurn, List.any_eq_true, Prod.exists, JsMap.mem_entries_iff, Bool.and_eq_true,
    beq_iff_eq]

theorem get_setPhase (id : TurnId) (phase : TurnPhase) (other : TurnId) :
    (s.setPhase id phase).turns.get other =
      if other = id then (s.turns.get id).map fun turn ↦ { turn with phase := phase }
      else s.turns.get other := JsMap.get_modify _ _ _ _

/-- The turns after a change of the phase of one. -/
theorem get_setPhase_eq_some_iff {id other : TurnId} {phase : TurnPhase} {turn stored : Turn}
    (hstored : s.turns.get id = some stored) :
    (s.setPhase id phase).turns.get other = some turn ↔
      (other = id ∧ turn = { stored with phase := phase }) ∨
        (other ≠ id ∧ s.turns.get other = some turn) := by
  rw [get_setPhase]
  by_cases hother : other = id
  · simp [hother, hstored, eq_comm]
  · simp [hother]

theorem othersInProgress_eq_false_iff (id : TurnId) (chat : ChatId) :
    s.othersInProgress id chat = false ↔ ∀ other turn, other ≠ id →
      s.turns.get other = some turn → turn.chat = chat → turn.phase = .ended := by
  rw [Bool.eq_false_iff, othersInProgress, ne_eq, hasTurn_eq_true_iff]
  simp only [Bool.and_eq_true, bne_iff_ne]
  constructor
  · intro hnone other turn hother hturn hchat
    by_contra hphase
    exact hnone ⟨other, turn, hturn, hchat, hother, hphase⟩
  · rintro hended ⟨other, turn, hturn, hchat, hother, hphase⟩
    exact hphase (hended other turn hother hturn hchat)

end

section

variable {e : ChatExecutor} {chat other : ChatId}

theorem isRunning_claim_of_ne (hother : other ≠ chat) :
    (e.claim chat).isRunning other = e.isRunning other := by
  unfold ChatExecutor.claim
  split
  · rfl
  · simp [ChatExecutor.isRunning, hother]

theorem sessions_claim : (e.claim chat).sessions = e.sessions := by
  unfold ChatExecutor.claim
  split <;> rfl

theorem isRunning_register_of_ne (session : TurnId) (hother : other ≠ chat) :
    (e.register chat session).isRunning other = e.isRunning other := by
  simp [ChatExecutor.isRunning, ChatExecutor.register, JsMap.has, JsMap.get_set_of_ne, hother]

theorem isRunning_unregister_self : (e.unregister chat).isRunning chat = false := by
  simp [ChatExecutor.isRunning, ChatExecutor.unregister, JsMap.has]

theorem isRunning_unregister_of_ne (hother : other ≠ chat) :
    (e.unregister chat).isRunning other = e.isRunning other := by
  simp [ChatExecutor.isRunning, ChatExecutor.unregister, JsMap.has, JsMap.get_delete_of_ne, hother]

end

/-! ## Steps -/

namespace Reachable

variable {s}

/-- A turn gets a phase other than running; when it ends, its chat has another turn in progress or
is not held. -/
theorem setPhase (h : Reachable s) {id : TurnId} {turn : Turn} {phase : TurnPhase}
    (hturn : s.turns.get id = some turn) (hphase : phase ≠ .running)
    (hlast : phase = .ended → s.othersInProgress id turn.chat = false →
      s.executor.isRunning turn.chat = false) : Reachable (s.setPhase id phase) where
  reachable other stored hstored hrunning := by
    rcases (get_setPhase_eq_some_iff hturn).mp hstored with ⟨-, rfl⟩ | ⟨-, hold⟩
    · exact absurd hrunning hphase
    · exact h.reachable other stored hold hrunning
  takesOwn := h.takesOwn
  free chat hended := by
    have hothers (other : TurnId) (stored : Turn) (hother : other ≠ id)
        (hstored : s.turns.get other = some stored) (hchat : stored.chat = chat) :
        stored.phase = .ended :=
      hended other stored ((get_setPhase_eq_some_iff hturn).mpr (Or.inr ⟨hother, hstored⟩)) hchat
    by_cases hchat : turn.chat = chat
    · have hself : phase = .ended :=
        hended id _ ((get_setPhase_eq_some_iff hturn).mpr (Or.inl ⟨rfl, rfl⟩)) hchat
      subst hchat
      exact hlast hself ((othersInProgress_eq_false_iff id _).mpr hothers)
    · apply h.free chat
      intro other stored hstored hsame
      by_cases hother : other = id
      · subst hother
        rw [hturn] at hstored
        cases hstored
        exact absurd hsame hchat
      · exact hothers other stored hother hstored hsame

/-- What a request makes of the executor when it arrives. -/
def arrive (executor : ChatExecutor) (chat : ChatId) : Endpoint → ChatExecutor
  | .messages | .stream => executor.claim chat
  | .resume => executor

theorem start (h : Reachable s) (id : TurnId) (chat : ChatId) (endpoint : Endpoint) :
    Reachable (s.start id chat endpoint) := by
  unfold ChatDaemon.start
  split
  · exact h
  · rename_i hfresh
    have hsessions : (arrive s.executor chat endpoint).sessions = s.executor.sessions := by
      cases endpoint <;> first | exact sessions_claim | rfl
    have hrunning (other : ChatId) (hother : other ≠ chat) :
        (arrive s.executor chat endpoint).isRunning other = s.executor.isRunning other := by
      cases endpoint <;> first | exact isRunning_claim_of_ne hother | rfl
    refine ⟨?_, h.takesOwn, ?_⟩
    · intro other turn hturn hphase
      change JsMap.get (s.turns.set id _) other = some turn at hturn
      rw [JsMap.get_set] at hturn
      split at hturn
      · cases hturn
        cases hphase
      · exact (congrArg (fun sessions ↦ JsMap.get sessions turn.chat) hsessions).trans
          (h.reachable other turn hturn hphase)
    · intro other hended
      have hnew := hended id ⟨chat, endpoint, .setup, false⟩ (JsMap.get_set_self _ _ _)
      have hother : other ≠ chat := by
        rintro rfl
        cases hnew rfl
      refine (hrunning other hother).trans (h.free other ?_)
      intro old turn hturn hsame
      refine hended old turn ?_ hsame
      have hold : old ≠ id := by
        rintro rfl
        exact hfresh ((s.turns.has_eq_true_iff old).mpr ⟨turn, hturn⟩)
      exact (JsMap.get_set_of_ne _ _ hold).trans hturn

theorem setupThrows (h : Reachable s) (id : TurnId)
    (hallowed : s.setupThrowsFree id = true) : Reachable (s.setupThrows id) := by
  unfold ChatDaemon.setupThrows
  split
  · rename_i chat endpoint aborted hturn
    refine h.setPhase hturn (by decide) ?_
    intro _ hlast
    simpa [setupThrowsFree, leavesFree, hturn, hlast] using hallowed
  · exact h

theorem parkThrows (h : Reachable s) (id : TurnId)
    (hallowed : s.parkThrowsFree id = true) : Reachable (s.parkThrows id) := by
  unfold ChatDaemon.parkThrows
  split
  · rename_i chat aborted hturn
    refine h.setPhase hturn (by decide) ?_
    intro _ hlast
    simpa [parkThrowsFree, leavesFree, hturn, hlast] using hallowed
  · exact h

theorem settle (h : Reachable s) (id : TurnId) : Reachable (s.settle id) := by
  unfold ChatDaemon.settle
  split
  · rename_i chat endpoint aborted hturn
    exact h.setPhase hturn (by decide) nofun
  · exact h

theorem register (h : Reachable s) (id : TurnId)
    (hallowed : s.registersAlone id = true) : Reachable (s.register id) := by
  unfold ChatDaemon.register
  split
  · rename_i chat endpoint aborted hturn
    have halone : ¬∃ other turn, s.turns.get other = some turn ∧ turn.chat = chat ∧
        turn.phase = .running := by
      simpa [registersAlone, hturn, Bool.eq_false_iff, hasTurn_eq_true_iff] using hallowed
    refine ⟨?_, h.takesOwn, ?_⟩
    · intro other turn hother hrunning
      rcases (get_setPhase_eq_some_iff hturn).mp hother with ⟨rfl, rfl⟩ | ⟨-, hold⟩
      · exact JsMap.get_set_self _ _ _
      · have hchat : turn.chat ≠ chat := fun hsame ↦
          halone ⟨other, turn, hold, hsame, hrunning⟩
        exact (JsMap.get_set_of_ne _ _ hchat).trans (h.reachable other turn hold hrunning)
    · intro other hended
      have hother : other ≠ chat := by
        rintro rfl
        cases hended id _ ((get_setPhase_eq_some_iff hturn).mpr (Or.inl ⟨rfl, rfl⟩)) rfl
      refine (isRunning_register_of_ne id hother).trans (h.free other ?_)
      intro old turn hold hsame
      refine hended old turn ((get_setPhase_eq_some_iff hturn).mpr (Or.inr ⟨?_, hold⟩)) hsame
      rintro rfl
      rw [hturn] at hold
      cases hold
      exact hother hsame.symm
  · exact h

theorem unregister (h : Reachable s) (id : TurnId)
    (hallowed : s.unregistersOwn id = true) : Reachable (s.unregister id) := by
  unfold ChatDaemon.unregister
  split
  · rename_i chat endpoint aborted hturn
    have hown : (s.executor.sessions.get chat = none ∨ s.executor.sessions.get chat = some id) ∧
        (chat ∉ s.executor.pendingSessions ∨ s.claimants chat = []) := by
      simpa [unregistersOwn, hturn] using hallowed
    refine ⟨?_, ?_, ?_⟩
    · intro other turn hother hrunning
      rcases (get_setPhase_eq_some_iff hturn).mp hother with ⟨-, rfl⟩ | ⟨hne, hold⟩
      · cases hrunning
      · have hsession := h.reachable other turn hold hrunning
        have hchat : turn.chat ≠ chat := by
          rintro rfl
          rw [hsession] at hown
          rcases hown.1 with hnone | hsome
          · cases hnone
          · exact hne (Option.some.inj hsome)
        exact (JsMap.get_delete_of_ne _ hchat).trans hsession
    · intro removal hmem
      rcases List.mem_cons.mp hmem with rfl | hold
      · refine ⟨?_, ?_⟩
        · intro session hsession
          rcases hown.1 with hnone | hsome
          · exact absurd (hsession.symm.trans hnone) (Option.some_ne_none session)
          · exact Option.some.inj (hsession.symm.trans hsome)
        · dsimp only
          split
          · rename_i hpending
            exact hown.2.resolve_left (not_not_intro hpending)
          · rfl
      · exact h.takesOwn removal hold
    · intro other hended
      by_cases hother : other = chat
      · subst hother
        exact isRunning_unregister_self
      · refine (isRunning_unregister_of_ne hother).trans (h.free other ?_)
        intro old turn hold hsame
        refine hended old turn ((get_setPhase_eq_some_iff hturn).mpr (Or.inr ⟨?_, hold⟩)) hsame
        rintro rfl
        rw [hturn] at hold
        cases hold
        exact hother hsame.symm
  · exact h

/-- An abort leaves the phases alone. -/
theorem abort (h : Reachable s) (id : TurnId) : Reachable (s.abort id) := by
  have hget (other : TurnId) : (s.abort id).turns.get other =
      if other = id then (s.turns.get id).map fun turn ↦ { turn with aborted := true }
      else s.turns.get other := JsMap.get_modify _ _ _ _
  have hback (other : TurnId) (turn : Turn) (hturn : (s.abort id).turns.get other = some turn) :
      ∃ stored, s.turns.get other = some stored ∧ stored.chat = turn.chat ∧
        stored.phase = turn.phase := by
    rw [hget] at hturn
    split at hturn
    · rename_i hother
      obtain ⟨stored, hstored, rfl⟩ := Option.map_eq_some_iff.mp hturn
      exact ⟨stored, hother ▸ hstored, rfl, rfl⟩
    · exact ⟨turn, hturn, rfl, rfl⟩
  have hforth (other : TurnId) (stored : Turn) (hstored : s.turns.get other = some stored) :
      ∃ turn, (s.abort id).turns.get other = some turn ∧ turn.chat = stored.chat ∧
        turn.phase = stored.phase := by
    rw [hget]
    split
    · rename_i hother
      exact ⟨{ stored with aborted := true }, by rw [← hother, hstored]; rfl, rfl, rfl⟩
    · exact ⟨stored, hstored, rfl, rfl⟩
  refine ⟨?_, h.takesOwn, ?_⟩
  · intro other turn hturn hrunning
    obtain ⟨stored, hstored, hchat, hphase⟩ := hback other turn hturn
    exact hchat ▸ h.reachable other stored hstored (hphase.trans hrunning)
  · intro chat hended
    apply h.free chat
    intro other stored hstored hsame
    obtain ⟨turn, hturn, hchat, hphase⟩ := hforth other stored hstored
    exact hphase.symm.trans (hended other turn hturn (hchat.trans hsame))

theorem cancel (h : Reachable s) (chat : ChatId) : Reachable (s.cancel chat) := by
  unfold ChatDaemon.cancel
  cases s.executor.sessions.get chat with
  | none => exact h
  | some id => exact h.abort id

theorem cancelAll (h : Reachable s) : Reachable s.cancelAll := by
  unfold ChatDaemon.cancelAll
  induction s.executor.sessions.entries generalizing s with
  | nil => exact h
  | cons entry entries ih => exact ih (h.abort entry.2)

theorem restart (h : Reachable s) : Reachable s.restart where
  reachable id turn hturn hrunning := by
    change (s.turns.mapWithKey _).get id = some turn at hturn
    rw [JsMap.get_mapWithKey] at hturn
    obtain ⟨stored, -, rfl⟩ := Option.map_eq_some_iff.mp hturn
    cases hrunning
  takesOwn := h.takesOwn
  free chat _ := rfl

theorem step (h : Reachable s) (event : ChatEvent)
    (hallowed : s.keepsReachable event = true) : Reachable (s.step event) := by
  cases event with
  | start id chat endpoint => exact h.start id chat endpoint
  | setupThrows id => exact h.setupThrows id hallowed
  | register id => exact h.register id hallowed
  | settle id => exact h.settle id
  | parkThrows id => exact h.parkThrows id hallowed
  | unregister id => exact h.unregister id hallowed
  | cancel chat => exact h.cancel chat
  | cancelAll => exact h.cancelAll
  | restart => exact h.restart

end Reachable

/-! ## Exactness -/

section

variable {s} {id : TurnId}

theorem registersAlone_of_reachable (hnext : Reachable (s.register id)) :
    s.registersAlone id = true := by
  unfold registersAlone
  unfold ChatDaemon.register at hnext
  split
  · rename_i chat endpoint aborted hturn
    rw [hturn] at hnext
    rw [Bool.not_eq_true', Bool.eq_false_iff, ne_eq, hasTurn_eq_true_iff]
    rintro ⟨other, turn, hother, rfl, hphase⟩
    have hrunning : turn.phase = .running := eq_of_beq hphase
    have hne : other ≠ id := by
      rintro rfl
      have hsame := Option.some.inj (hturn.symm.trans hother)
      rw [← hsame] at hrunning
      cases hrunning
    have hkept := hnext.reachable other turn
      ((get_setPhase_eq_some_iff hturn).mpr (Or.inr ⟨hne, hother⟩)) hrunning
    have hset : (s.executor.register turn.chat id).sessions.get turn.chat = some id :=
      JsMap.get_set_self _ _ _
    exact hne (Option.some.inj (hkept.symm.trans hset))
  · rfl

theorem unregistersOwn_of_reachable (hnext : Reachable (s.unregister id)) :
    s.unregistersOwn id = true := by
  unfold unregistersOwn
  unfold ChatDaemon.unregister at hnext
  split
  · rename_i chat endpoint aborted hturn
    rw [hturn] at hnext
    obtain ⟨hsession, hclaims⟩ := hnext.takesOwn _ List.mem_cons_self
    rw [Bool.and_eq_true]
    constructor
    · cases hkept : s.executor.sessions.get chat with
      | none => rfl
      | some session => simp [hsession session hkept]
    · by_cases hpending : chat ∈ s.executor.pendingSessions
      · simpa [hpending] using hclaims
      · simp [hpending]
  · rfl

/-- A turn that ended without its `unregister` has left the chat free, unless others go on. -/
theorem leavesFree_of_reachable {turn : Turn} (hturn : s.turns.get id = some turn)
    (hnext : Reachable (s.setPhase id .ended)) : s.leavesFree id turn.chat = true := by
  unfold leavesFree
  cases hothers : s.othersInProgress id turn.chat with
  | true => exact Bool.or_true _
  | false =>
    have hended := (othersInProgress_eq_false_iff id turn.chat).mp hothers
    have hfree : s.executor.isRunning turn.chat = false := by
      apply hnext.free turn.chat
      intro other stored hstored hchat
      rcases (get_setPhase_eq_some_iff hturn).mp hstored with ⟨-, rfl⟩ | ⟨hne, hold⟩
      · rfl
      · exact hended other stored hne hold hchat
    rw [hfree]
    rfl

theorem setupThrowsFree_of_reachable (hnext : Reachable (s.setupThrows id)) :
    s.setupThrowsFree id = true := by
  unfold setupThrowsFree
  unfold ChatDaemon.setupThrows at hnext
  split
  · rename_i chat endpoint aborted hturn
    rw [hturn] at hnext
    exact leavesFree_of_reachable hturn hnext
  · rfl

theorem parkThrowsFree_of_reachable (hnext : Reachable (s.parkThrows id)) :
    s.parkThrowsFree id = true := by
  unfold parkThrowsFree
  unfold ChatDaemon.parkThrows at hnext
  split
  · rename_i chat aborted hturn
    rw [hturn] at hnext
    exact leavesFree_of_reachable hturn hnext
  · rfl

end

/-- A step to a state in which the sessions are reachable is an allowed one. -/
theorem keepsReachable_of_reachable (event : ChatEvent) (hnext : Reachable (s.step event)) :
    s.keepsReachable event = true := by
  cases event with
  | register id => exact registersAlone_of_reachable hnext
  | unregister id => exact unregistersOwn_of_reachable hnext
  | setupThrows id => exact setupThrowsFree_of_reachable hnext
  | parkThrows id => exact parkThrowsFree_of_reachable hnext
  | start id chat endpoint => rfl
  | settle id => rfl
  | cancel chat => rfl
  | cancelAll => rfl
  | restart => rfl

/-- A daemon that has just booted. -/
theorem reachable_boot : Reachable {} where
  reachable _ _ hturn := by cases hturn
  takesOwn _ hmem := by cases hmem
  free _ _ := rfl

/-- The executor reaches the session of every running turn and is free of ended ones, in every
state of a run, exactly when the turns of one chat keep out of each other's way and none throws
while it alone holds the chat. -/
theorem live_session_reachable_iff (events : List ChatEvent) :
    (∀ before, before <+: events → Reachable (run step {} before)) ↔
      Disciplined step (fun s event ↦ s.keepsReachable event = true) {} events :=
  disciplined_iff_good (fun _ event h hallowed ↦ h.step event hallowed) (fun _ ↦ id)
    (fun s event _ hnext ↦ s.keepsReachable_of_reachable event hnext) reachable_boot events

/-- The second of two overlapping turns replaces the session of the first, the first to end takes
the session of the second away, and a stream whose `effort` is not valid leaves its chat claimed. -/
theorem live_session_not_reachable :
    ¬Reachable (run step {} [.start 0 7 .stream, .register 0, .start 1 7 .stream, .register 1]) ∧
    ¬Reachable (run step {} [.start 0 7 .stream, .register 0, .settle 0, .start 1 7 .stream,
      .register 1, .unregister 0]) ∧
    ¬Reachable (run step {} [.start 0 7 .stream, .setupThrows 0]) := by
  refine ⟨fun h ↦ ?_, fun h ↦ ?_, fun h ↦ ?_⟩
  · have hkept := h.reachable 0 ⟨7, .stream, .running, false⟩ (by decide) rfl
    revert hkept
    decide
  · have hkept := h.reachable 1 ⟨7, .stream, .running, false⟩ (by decide) rfl
    revert hkept
    decide
  · have hfree := h.free 7 ?_
    · revert hfree
      decide
    · intro id turn hturn _
      have hended : ∀ entry ∈ (run step {} [.start 0 7 .stream, .setupThrows 0]).turns.entries,
          entry.2.phase = .ended := by decide
      exact hended (id, turn) ((JsMap.mem_entries_iff _ id turn).mpr hturn)

end ChatDaemon

end Flockctl.Chats
