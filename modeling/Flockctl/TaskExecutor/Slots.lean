import Flockctl.TaskExecutor.Moves

/-!
# Key slots over whole runs

The books of the key pool are compared with the keys that the suspended calls really hold. They
agree after every move of the executor but one: a key granted to a task that already has a
reservation, which the pool overwrites. Runs without such a grant keep the books right in every
state they reach. The capacity of a key is respected in all runs.
-/

namespace Flockctl.TaskExecutor

open Collections Ai Tasks Transition

namespace KeyPool

/-- The pool says of the granted keys what there is to say: every counter is the number of grants
of its key, every task holds one key at most, and that key is its reservation. -/
structure Accounts (pool : KeyPool) (grants : Multiset (TaskId × KeyId)) : Prop where
  counted : ∀ keyId, pool.used keyId = (grants.map Prod.snd).count keyId
  indexed : Indexes pool.reservedKeyByTask grants
  tidy : pool.Tidy

namespace Accounts

variable {pool : KeyPool} {grants : Multiset (TaskId × KeyId)} {taskId : TaskId} {keyId : KeyId}

theorem reset (pool : KeyPool) : pool.reset.Accounts 0 where
  counted _ := rfl
  indexed := Indexes.empty
  tidy := pool.tidy_reset

theorem reserve (h : pool.Accounts grants) (hfree : pool.reservedKeyByTask.get taskId = none)
    (keyId : KeyId) : (pool.reserve taskId keyId).Accounts ((taskId, keyId) ::ₘ grants) where
  counted other := by
    rw [used_reserve, h.counted, Multiset.map_cons, Multiset.count_cons]
  indexed := h.indexed.set hfree keyId
  tidy := h.tidy.reserve taskId keyId

theorem release (h : pool.Accounts ((taskId, keyId) ::ₘ grants)) :
    (pool.release taskId).Accounts grants := by
  have hreserved : pool.reservedKeyByTask.get taskId = some keyId :=
    (h.indexed.get_iff taskId keyId).mpr (Multiset.mem_cons_self _ _)
  refine ⟨?_, ?_, h.tidy.release taskId⟩
  · intro other
    have hcount := h.counted other
    rw [Multiset.map_cons, Multiset.count_cons] at hcount
    rw [used_release_of_some hreserved, hcount, Nat.add_sub_cancel]
  · have hdelete := h.indexed.delete
    rw [KeyPool.release, hreserved]
    exact hdelete

/-- With nothing granted, both maps are empty. -/
theorem entries_eq_nil (h : pool.Accounts 0) :
    pool.keySlotUsage.entries = [] ∧ pool.reservedKeyByTask.entries = [] := by
  refine ⟨?_, h.indexed.entries_eq_nil⟩
  rw [JsMap.entries_eq_nil_iff]
  intro keyId
  apply h.tidy.get_eq_none
  rw [h.counted]
  rfl

end Accounts

/-- No counter is above the capacity. -/
def Bounded (pool : KeyPool) : Prop := ∀ keyId, pool.used keyId ≤ pool.maxConcurrentPerKey

theorem used_release_le (pool : KeyPool) (taskId : TaskId) (keyId : KeyId) :
    (pool.release taskId).used keyId ≤ pool.used keyId := by
  cases h : pool.reservedKeyByTask.get taskId with
  | none => rw [release_of_none h]
  | some held =>
    rw [used_release_of_some h]
    exact Nat.sub_le _ _

theorem Bounded.release {pool : KeyPool} (h : pool.Bounded) (taskId : TaskId) :
    (pool.release taskId).Bounded := by
  intro keyId
  rw [maxConcurrentPerKey_release]
  exact (pool.used_release_le taskId keyId).trans (h keyId)

/-- The test of `reserveForTask` leaves room for one more. -/
theorem Bounded.reserve {pool : KeyPool} (h : pool.Bounded) (taskId : TaskId) {keyId : KeyId}
    (hfree : pool.isSaturated keyId = false) : (pool.reserve taskId keyId).Bounded := by
  intro other
  have hroom : pool.used keyId < pool.maxConcurrentPerKey := by
    simpa [isSaturated] using hfree
  have hother := h other
  rw [used_reserve, maxConcurrentPerKey_reserve]
  split
  · rename_i heq
    rw [heq]
    exact hroom
  · exact hother

end KeyPool

namespace Call

theorem grant_eq {call next : Call} (htask : next.taskId = call.taskId)
    (hkey : next.phase.keyId = call.phase.keyId) : next.grant = call.grant := by
  rw [grant, grant, htask, hkey]

theorem grant_of_keyId {call : Call} {keyId : KeyId} (hkey : call.phase.keyId = some keyId) :
    call.grant = some (call.taskId, keyId) := by
  rw [grant, hkey]
  rfl

theorem grant_of_none {call : Call} (hkey : call.phase.keyId = none) : call.grant = none := by
  rw [grant, hkey]
  rfl

theorem openSession_of_session {call : Call} {session : SessionId}
    (hsession : call.phase.session = some session) :
    call.openSession = some (call.taskId, session) := by
  rw [openSession, hsession]
  rfl

theorem openSession_of_none {call : Call} (hsession : call.phase.session = none) :
    call.openSession = none := by
  rw [openSession, hsession]
  rfl

theorem holds_nothing {call : Call} (h : call.phase.isSelecting = true) :
    call.grant = none ∧ call.openSession = none := by
  obtain ⟨id, phase⟩ := call
  cases phase with
  | selecting task saturatedKeyIds selected => exact ⟨rfl, rfl⟩
  | reserved reservation => cases h
  | building key requiresApproval => cases h
  | live key session requiresApproval => cases h
  | finishing key => cases h

end Call

theorem Submitted.grant_eq_none {fresh : List Call} (h : Submitted fresh) :
    ∀ call ∈ fresh, call.grant = none :=
  fun call hcall ↦ (Call.holds_nothing (h call hcall)).1

theorem Submitted.openSession_eq_none {fresh : List Call} (h : Submitted fresh) :
    ∀ call ∈ fresh, call.openSession = none :=
  fun call hcall ↦ (Call.holds_nothing (h call hcall)).2

/-- What a move does to the pool and to the keys the calls hold. -/
theorem Move.slots {e e' : Executor} {act : Act} (h : Move e act e') :
    (act.isGrant = false ∧ e'.pool = e.pool ∧ e'.grants = e.grants) ∨
    (∃ taskId keyId, act = .grant taskId keyId ∧ e.pool.isSaturated keyId = false ∧
      e'.pool = e.pool.reserve taskId keyId ∧ e'.grants = (taskId, keyId) ::ₘ e.grants) ∨
    (∃ taskId keyId, act = .plain ∧ e.grants = (taskId, keyId) ::ₘ e'.grants ∧
      e'.pool = e.pool.release taskId) ∨
    (act = .plain ∧ e'.pool = e.pool.reset ∧ e'.grants = 0) := by
  cases h with
  | submit fresh hfresh =>
    exact .inl ⟨rfl, rfl, Executor.held_append_of_none _ hfresh.grant_eq_none⟩
  | goOn i call next hcall htask hkey _ _ _ =>
    exact .inl ⟨rfl, rfl, Executor.held_next_of_eq hcall (Call.grant_eq htask hkey)⟩
  | grant i call next hcall key htask hselecting hnext hfree =>
    refine .inr (.inl ⟨call.taskId, key.id, rfl, hfree, rfl, ?_⟩)
    have hnextGrant : next.grant = some (call.taskId, key.id) := by
      rw [Call.grant, htask, hnext]
      rfl
    exact (Executor.held_next_of_some hnextGrant).trans
      (congrArg _ (Executor.held_of_none hcall (Call.holds_nothing hselecting).1).symm)
  | discard i call hcall hkey _ =>
    exact .inl ⟨rfl, rfl, (Executor.held_of_none hcall (Call.grant_of_none hkey)).symm⟩
  | enqueue i call hcall hphase =>
    have hkey : call.phase.keyId = none := by rw [hphase]; rfl
    exact .inl ⟨rfl, rfl, (Executor.held_of_none hcall (Call.grant_of_none hkey)).symm⟩
  | openSession i call next hcall htask hkey _ session _ _ =>
    exact .inl ⟨rfl, rfl, Executor.held_next_of_eq hcall (Call.grant_eq htask hkey)⟩
  | closeSession i call next hcall htask hkey session _ _ =>
    exact .inl ⟨rfl, rfl, Executor.held_next_of_eq hcall (Call.grant_eq htask hkey)⟩
  | finish i call hcall keyId hkey _ fresh hfresh =>
    refine .inr (.inr (.inl ⟨call.taskId, keyId, rfl, ?_, rfl⟩))
    exact (Executor.held_of_some hcall (Call.grant_of_keyId hkey)).trans
      (congrArg _ (Executor.held_append_of_none _ hfresh.grant_eq_none).symm)
  | dequeue queue _ => exact .inl ⟨rfl, rfl, rfl⟩
  | restart fresh hfresh =>
    exact .inr (.inr (.inr ⟨rfl, rfl, Executor.held_append_of_none [] hfresh.grant_eq_none⟩))

namespace Executor

/-- The number of runs in progress that were granted a key. -/
def runsOn (e : Executor) (keyId : KeyId) : ℕ :=
  e.calls.countP fun call ↦ call.phase.keyId == some keyId

theorem runsOn_eq_count (e : Executor) (keyId : KeyId) :
    e.runsOn keyId = (e.grants.map Prod.snd).count keyId := by
  have hcalls (calls : List Call) :
      (calls.countP fun call ↦ call.phase.keyId == some keyId) =
        ((calls.filterMap Call.grant).map Prod.snd).count keyId := by
    induction calls with
    | nil => rfl
    | cons call calls ih =>
      cases hkey : call.phase.keyId with
      | none => simp [hkey, Call.grant_of_none hkey, ih]
      | some held =>
        simp [List.countP_cons, hkey, Call.grant_of_keyId hkey, ih, List.count_cons]
  rw [grants, inFlight, Multiset.filterMap_coe, Multiset.map_coe, Multiset.coe_count]
  exact hcalls e.calls

/-- The slots are conserved: the counter of a key is the number of runs in progress that were
granted it, within the capacity, and an idle executor has empty maps. -/
structure SlotsConserved (e : Executor) : Prop where
  counted : ∀ keyId, e.pool.used keyId = e.runsOn keyId
  bounded : ∀ keyId, e.pool.used keyId ≤ e.pool.maxConcurrentPerKey
  idle : (∀ call ∈ e.calls, call.phase.keyId = none) →
    e.pool.keySlotUsage.entries = [] ∧ e.pool.reservedKeyByTask.entries = []

theorem SlotsConserved.of_accounts {e : Executor} (haccounts : e.pool.Accounts e.grants)
    (hbounded : e.pool.Bounded) : e.SlotsConserved where
  counted keyId := by
    rw [haccounts.counted, runsOn_eq_count]
  bounded := hbounded
  idle hidle := by
    have hgrants : e.grants = 0 := by
      rw [grants, inFlight, Multiset.filterMap_coe, Multiset.coe_eq_zero]
      apply List.filterMap_eq_nil_iff.mpr
      intro call hcall
      exact Call.grant_of_none (hidle call hcall)
    rw [hgrants] at haccounts
    exact haccounts.entries_eq_nil

/-- The capacity is respected by every move. -/
theorem bounded_of_move {e e' : Executor} {act : Act} (h : Move e act e')
    (hbounded : e.pool.Bounded) : e'.pool.Bounded := by
  obtain ⟨_, hpool, _⟩ | ⟨taskId, keyId, _, hfree, hpool, _⟩ | ⟨taskId, _, _, _, hpool⟩ |
    ⟨_, hpool, _⟩ := h.slots
  · rw [hpool]
    exact hbounded
  · rw [hpool]
    exact hbounded.reserve taskId hfree
  · rw [hpool]
    exact hbounded.release taskId
  · rw [hpool]
    intro keyId
    exact Nat.zero_le _

/-- The books stay right under every move but a grant to a task with a reservation. -/
theorem accounts_of_move {e e' : Executor} {act : Act} (h : Move e act e')
    (hfresh : ∀ taskId keyId, act = .grant taskId keyId →
      e.pool.reservedKeyByTask.get taskId = none)
    (haccounts : e.pool.Accounts e.grants) : e'.pool.Accounts e'.grants := by
  obtain ⟨_, hpool, hgrants⟩ | ⟨taskId, keyId, hact, _, hpool, hgrants⟩ |
    ⟨taskId, keyId, _, hgrants, hpool⟩ | ⟨_, hpool, hgrants⟩ := h.slots
  · rw [hpool, hgrants]
    exact haccounts
  · rw [hpool, hgrants]
    exact haccounts.reserve (hfresh taskId keyId hact) keyId
  · rw [hpool]
    rw [hgrants] at haccounts
    exact haccounts.release
  · rw [hpool, hgrants]
    exact KeyPool.Accounts.reset e.pool

end Executor

/-- A grant meets a task without a reservation. -/
def freshGrant (d : Daemon) (event : Event) : Bool :=
  match d.act event with
  | .grant taskId _ => (d.executor.pool.reservedKeyByTask.get taskId).isNone
  | _ => true

theorem reserved_eq_none_of_freshGrant {d : Daemon} {event : Event}
    (h : freshGrant d event = true) {taskId : TaskId} {keyId : KeyId}
    (hact : d.act event = .grant taskId keyId) :
    d.executor.pool.reservedKeyByTask.get taskId = none := by
  unfold freshGrant at h
  rw [hact] at h
  exact Option.isNone_iff_eq_none.mp h

section Runs

variable (tasks : TaskTable) (ai : AiTables) (overBudget : List (Option ProjectId))
  (maxConcurrentPerKey : ℕ)

/-- No run whatsoever raises a counter above the capacity. -/
theorem run_bounded (events : List Event) :
    (run step (stopped tasks ai overBudget maxConcurrentPerKey) events).executor.pool.Bounded := by
  have hstep (d : Daemon) (event : Event) (hbounded : d.executor.pool.Bounded) :
      (step d event).executor.pool.Bounded := Executor.bounded_of_move (step_move d event) hbounded
  have hstart : (stopped tasks ai overBudget maxConcurrentPerKey).executor.pool.Bounded :=
    fun _ ↦ Nat.zero_le _
  exact run_preserves hstep hstart events

theorem run_accounts (events : List Event)
    (hevents : Disciplined step (fun d event ↦ freshGrant d event = true)
      (stopped tasks ai overBudget maxConcurrentPerKey) events) :
    let e := (run step (stopped tasks ai overBudget maxConcurrentPerKey) events).executor
    e.pool.Accounts e.grants := by
  have hstep (d : Daemon) (event : Event)
      (haccounts : d.executor.pool.Accounts d.executor.grants)
      (hfresh : freshGrant d event = true) :
      (step d event).executor.pool.Accounts (step d event).executor.grants := by
    apply Executor.accounts_of_move (step_move d event) _ haccounts
    intro taskId keyId hact
    exact reserved_eq_none_of_freshGrant hfresh hact
  have hstart : (stopped tasks ai overBudget maxConcurrentPerKey).executor.pool.Accounts 0 :=
    KeyPool.Accounts.reset { maxConcurrentPerKey := maxConcurrentPerKey }
  have hrun := run_invariant hstep hstart events hevents
  exact hrun

/-- Slots are conserved in every run whose grants all go to tasks without a reservation. -/
theorem keySlots_conserved (events : List Event)
    (hevents : Disciplined step (fun d event ↦ freshGrant d event = true)
      (stopped tasks ai overBudget maxConcurrentPerKey) events) :
    (run step (stopped tasks ai overBudget maxConcurrentPerKey) events).executor.SlotsConserved :=
  Executor.SlotsConserved.of_accounts
    (run_accounts tasks ai overBudget maxConcurrentPerKey events hevents)
    (run_bounded tasks ai overBudget maxConcurrentPerKey events)

end Runs

/-- A daemon with one key of the default capacity and no tasks. -/
abbrev oneKey : Daemon := stopped TaskTable.empty { keys := [{ id := 1 }] } [] 5

/-- A task is posted and runs to its end, then a second one starts. -/
def separateRuns : List Event :=
  [.post {}, .resume 0, .resume 0, .contextBuilt 0 (some {}), .sessionEnded 0 .success, .resume 0,
    .post {}, .resume 0, .resume 0]

theorem keySlots_conserved_separateRuns :
    (run step oneKey separateRuns).executor.SlotsConserved :=
  keySlots_conserved TaskTable.empty { keys := [{ id := 1 }] } [] 5 separateRuns
    (by decide +kernel)

/-- A posted task is executed again by the auto-executor, which reuses the execution task its
plan file points at. Both calls are granted the key, and both run to their ends. -/
def overlappingRuns : List Event :=
  [.post {}, .planTask ⟨some 1, {}⟩, .resume 0, .resume 0, .resume 0, .resume 0,
    .contextBuilt 0 (some {}), .contextBuilt 0 (some {}), .sessionEnded 0 .success,
    .sessionEnded 0 .success, .resume 0, .resume 0]

/-- One slot of the key stays taken with nothing in flight. -/
theorem keySlots_leaked : ¬(run step oneKey overlappingRuns).executor.SlotsConserved := by
  intro h
  have hidle : ∀ call ∈ (run step oneKey overlappingRuns).executor.calls,
      call.phase.keyId = none := by decide +kernel
  have hleak : (run step oneKey overlappingRuns).executor.pool.keySlotUsage.entries = [(1, 1)] := by
    decide +kernel
  rw [(h.idle hidle).1] at hleak
  cases hleak

end Flockctl.TaskExecutor
