import Flockctl.TaskExecutor.Slots

/-!
# Status writes and the trace

What a status write does to the rows and to the trace, and the relation between two daemons of
which the second has come out of the first by emitting effects of one kind only.
-/

namespace Flockctl.TaskExecutor

open Collections Ai Tasks

namespace Daemon

theorem get_writeStatus (d : Daemon) (writer : Writer) (id : TaskId) (next : TaskStatus)
    (also : TaskRow → TaskRow) (other : TaskId) :
    (d.writeStatus writer id next also).tasks.get other =
      if other = id then (d.tasks.get id).map fun row ↦ { also row with status := next }
      else d.tasks.get other :=
  TaskTable.get_update _ _ _ _

theorem statusOf_writeStatus (d : Daemon) (writer : Writer) (id : TaskId) (next : TaskStatus)
    (also : TaskRow → TaskRow) (other : TaskId) :
    (d.writeStatus writer id next also).statusOf other =
      if other = id then (d.statusOf id).map fun _ ↦ next else d.statusOf other := by
  unfold statusOf
  rw [get_writeStatus]
  split
  · cases d.tasks.get id <;> rfl
  · rfl

theorem statusOf_eq_some_iff (d : Daemon) (id : TaskId) (status : TaskStatus) :
    d.statusOf id = some status ↔ ∃ row, d.tasks.get id = some row ∧ row.status = status := by
  simp [statusOf]

theorem mayBecome_eq_true_iff (d : Daemon) (id : TaskId) (next : TaskStatus) :
    d.mayBecome id next = true ↔
      ∃ status, d.statusOf id = some status ∧ validateTaskTransition status next = true := by
  unfold mayBecome
  cases d.statusOf id <;> simp

theorem statusOf_insert (d : Daemon) (row : TaskRow) (id : TaskId) :
    statusOf { d with tasks := d.tasks.insert row } id =
      if id = d.tasks.nextId then some row.status else d.statusOf id := by
  unfold statusOf
  change ((d.tasks.insert row).get id).map (·.status) = _
  rw [TaskTable.get_insert]
  split <;> rfl

/-- Only issued ids have a status. -/
theorem ne_nextId_of_statusOf {d : Daemon} {id : TaskId} {status : TaskStatus}
    (h : d.statusOf id = some status) : id ≠ d.tasks.nextId := by
  intro hid
  rw [hid, statusOf, TaskTable.get_nextId] at h
  cases h

/-- The second daemon has come out of the first by effects of the kind `kind`. -/
def Emits (kind : Effect → Prop) (d d' : Daemon) : Prop :=
  ∃ fresh, d'.trace = fresh ++ d.trace ∧ ∀ effect ∈ fresh, kind effect

namespace Emits

variable {kind : Effect → Prop} {d d' d'' : Daemon}

theorem of_trace_eq (h : d'.trace = d.trace) : Emits kind d d' := by
  refine ⟨[], h, ?_⟩
  intro effect heffect
  cases heffect

theorem refl (d : Daemon) : Emits kind d d := of_trace_eq rfl

theorem single {effect : Effect} (h : d'.trace = effect :: d.trace) (hkind : kind effect) :
    Emits kind d d' := by
  refine ⟨[effect], h, ?_⟩
  intro other hother
  rw [List.mem_singleton.mp hother]
  exact hkind

theorem trans (h : Emits kind d d') (h' : Emits kind d' d'') : Emits kind d d'' := by
  obtain ⟨fresh, htrace, hfresh⟩ := h
  obtain ⟨more, htrace', hmore⟩ := h'
  refine ⟨more ++ fresh, by rw [htrace', htrace, List.append_assoc], ?_⟩
  intro effect heffect
  rcases List.mem_append.mp heffect with heffect | heffect
  · exact hmore effect heffect
  · exact hfresh effect heffect

/-- A status write emits one effect when the row exists, and nothing otherwise. -/
theorem writeStatus (d : Daemon) (writer : Writer) (id : TaskId) (next : TaskStatus)
    (also : TaskRow → TaskRow)
    (hkind : ∀ before, d.statusOf id = some before → kind (.status writer id before next)) :
    Emits kind d (d.writeStatus writer id next also) := by
  refine ⟨d.statusEffect writer id next, rfl, ?_⟩
  intro effect heffect
  unfold statusEffect at heffect
  split at heffect
  · cases heffect
  · rename_i row hrow
    rw [List.mem_singleton.mp heffect]
    exact hkind row.status ((d.statusOf_eq_some_iff id row.status).mpr ⟨row, hrow, rfl⟩)

end Emits

end Daemon

end Flockctl.TaskExecutor

/-!
# Wake-ups of the key queue

A task waits in the in-memory queue until some run returns its key, because `_processQueue` runs
in the `finally` block of `execute` and nowhere else. A reservation always belongs to a call that
has its `finally` block ahead, so a queue next to a reservation will be drained. The call that
found every key saturated awaits two more promises before it reaches `enqueue`, and the runs that
saturated the keys can all end in between. A task that is put into the queue then is never looked
at again.
-/

namespace Flockctl.TaskExecutor

open Collections Ai Tasks Transition

namespace Executor

/-- Every reservation belongs to a call in flight that was granted a key. -/
def Backed (e : Executor) : Prop :=
  ∀ taskId keyId, e.pool.reservedKeyByTask.get taskId = some keyId →
    taskId ∈ e.grants.map Prod.fst

/-- Next to a waiting task there is a reservation, and a call in flight that will return it. -/
def QueueServed (e : Executor) : Prop :=
  e.queue ≠ [] → ∃ taskId keyId, e.pool.reservedKeyByTask.get taskId = some keyId ∧
    ∃ call ∈ e.calls, call.taskId = taskId ∧ call.phase.keyId ≠ none

theorem exists_call_of_mem_grants {e : Executor} {taskId : TaskId}
    (h : taskId ∈ e.grants.map Prod.fst) :
    ∃ call ∈ e.calls, call.taskId = taskId ∧ call.phase.keyId ≠ none := by
  obtain ⟨⟨holder, keyId⟩, hheld, hholder⟩ := Multiset.mem_map.mp h
  obtain ⟨call, hcall, hgrant⟩ := (Multiset.mem_filterMap _ _).mp hheld
  obtain ⟨key, hkey, hpair⟩ := Option.map_eq_some_iff.mp hgrant
  have htask : call.taskId = holder := (Prod.ext_iff.mp hpair).1
  refine ⟨call, Multiset.mem_coe.mp hcall, htask.trans hholder, ?_⟩
  rw [hkey]
  exact Option.some_ne_none key

theorem backed_of_move {e e' : Executor} {act : Act} (h : Move e act e') (hbacked : e.Backed) :
    e'.Backed := by
  intro other key hother
  obtain ⟨_, hpool, hgrants⟩ | ⟨taskId, keyId, _, _, hpool, hgrants⟩ |
    ⟨taskId, keyId, _, hgrants, hpool⟩ | ⟨_, hpool, _⟩ := h.slots
  · rw [hgrants]
    rw [hpool] at hother
    exact hbacked other key hother
  · rw [hgrants, Multiset.map_cons, Multiset.mem_cons]
    rw [hpool, KeyPool.reserved_reserve] at hother
    split at hother
    · rename_i heq
      exact .inl heq
    · exact .inr (hbacked other key hother)
  · rw [hpool, KeyPool.reserved_release] at hother
    split at hother
    · cases hother
    · rename_i hne
      have hmem := hbacked other key hother
      rw [hgrants, Multiset.map_cons, Multiset.mem_cons] at hmem
      exact hmem.resolve_left hne
  · rw [hpool] at hother
    cases hother

/-- Some task has a reservation. -/
def Reserving (e : Executor) : Prop := ∃ taskId keyId,
  e.pool.reservedKeyByTask.get taskId = some keyId

/-- A move leaves a waiting task next to a reservation, provided that it puts no task into the
queue while there is none: the other moves that take a reservation away empty the queue. -/
theorem reserving_of_move {e e' : Executor} {act : Act} (h : Move e act e')
    (henqueue : ∀ taskId, act = .enqueue taskId → e.Reserving)
    (hreserving : e.queue ≠ [] → e.Reserving) : e'.queue ≠ [] → e'.Reserving := by
  intro hqueue
  cases h with
  | submit fresh _ => exact hreserving hqueue
  | goOn i call next _ _ _ _ _ _ => exact hreserving hqueue
  | grant i call next _ key _ _ _ _ =>
    refine ⟨call.taskId, key.id, ?_⟩
    rw [KeyPool.reserved_reserve, if_pos rfl]
  | discard i call _ _ _ => exact hreserving hqueue
  | enqueue i call _ _ => exact henqueue call.taskId rfl
  | openSession i call next _ _ _ _ session _ _ => exact hreserving hqueue
  | closeSession i call next _ _ _ session _ _ => exact hreserving hqueue
  | finish i call _ keyId _ _ fresh _ => exact absurd rfl hqueue
  | dequeue queue hsublist =>
    apply hreserving
    intro hnil
    rw [hnil] at hsublist
    exact hqueue (List.eq_nil_of_sublist_nil hsublist)
  | restart fresh _ => exact absurd rfl hqueue

end Executor

/-- A call reaches `enqueue` while some task holds a reservation. -/
def heldEnqueue (d : Daemon) (event : Event) : Bool :=
  match d.act event with
  | .enqueue _ => !d.executor.pool.reservedKeyByTask.entries.isEmpty
  | _ => true

theorem reserving_of_heldEnqueue {d : Daemon} {event : Event} (h : heldEnqueue d event = true)
    {taskId : TaskId} (hact : d.act event = .enqueue taskId) : d.executor.Reserving := by
  unfold heldEnqueue at h
  rw [hact] at h
  cases hentries : d.executor.pool.reservedKeyByTask.entries with
  | nil => simp [hentries] at h
  | cons entry rest =>
    refine ⟨entry.1, entry.2, ?_⟩
    rw [← JsMap.mem_entries_iff, hentries]
    exact List.mem_cons_self

section Runs

variable (tasks : TaskTable) (ai : AiTables) (overBudget : List (Option ProjectId))
  (maxConcurrentPerKey : ℕ)

/-- In all runs a reservation belongs to a call that has its `finally` block ahead. -/
theorem run_backed (events : List Event) :
    (run step (stopped tasks ai overBudget maxConcurrentPerKey) events).executor.Backed := by
  have hstep (d : Daemon) (event : Event) (hbacked : d.executor.Backed) :
      (step d event).executor.Backed := Executor.backed_of_move (step_move d event) hbacked
  have hstart : (stopped tasks ai overBudget maxConcurrentPerKey).executor.Backed := by
    intro taskId keyId h
    cases h
  exact run_preserves hstep hstart events

/-- No wake-up is lost in a run that puts tasks into the queue only next to a reservation. -/
theorem queueServed_of_heldEnqueues (events : List Event)
    (hevents : Disciplined step (fun d event ↦ heldEnqueue d event = true)
      (stopped tasks ai overBudget maxConcurrentPerKey) events) :
    (run step (stopped tasks ai overBudget maxConcurrentPerKey) events).executor.QueueServed := by
  have hstep (d : Daemon) (event : Event)
      (hreserving : d.executor.queue ≠ [] → d.executor.Reserving)
      (hheld : heldEnqueue d event = true) :
      (step d event).executor.queue ≠ [] → (step d event).executor.Reserving := by
    apply Executor.reserving_of_move (step_move d event) _ hreserving
    intro taskId hact
    exact reserving_of_heldEnqueue hheld hact
  have hstart : (stopped tasks ai overBudget maxConcurrentPerKey).executor.queue ≠ [] →
      (stopped tasks ai overBudget maxConcurrentPerKey).executor.Reserving :=
    fun hqueue ↦ absurd rfl hqueue
  intro hqueue
  have hrun := run_invariant hstep hstart events hevents
  obtain ⟨taskId, keyId, hreserved⟩ := hrun hqueue
  have hbacked := run_backed tasks ai overBudget maxConcurrentPerKey events taskId keyId hreserved
  exact ⟨taskId, keyId, hreserved, Executor.exists_call_of_mem_grants hbacked⟩

end Runs

/-- One slot, two tasks: the second waits in the queue while the first one runs. -/
theorem queueServed_saturatedKey :
    (run step (stopped TaskTable.empty { keys := [{ id := 1 }] } [] 1)
      [.post {}, .resume 0, .resume 0, .post {}, .resume 1, .resume 1,
        .resume 1]).executor.QueueServed :=
  queueServed_of_heldEnqueues TaskTable.empty { keys := [{ id := 1 }] } [] 1
    [.post {}, .resume 0, .resume 0, .post {}, .resume 1, .resume 1, .resume 1]
    (by decide +kernel)

/-- Six queued tasks of a project whose budget is spent. -/
def sixOverBudget : TaskTable :=
  (List.replicate 6 { keys := { projectId := some 1 } }).foldl TaskTable.insert TaskTable.empty

/-- The daemon boots and the event loop runs the foremost continuation until none is left. Five
runs fail on the budget and return their slots before the sixth call, which found the key
saturated, reaches `enqueue`. -/
theorem queueServed_fails_overBudget :
    let d := run step (stopped sixOverBudget { keys := [{ id := 1 }] } [some 1] 5)
      (.boot [] [] :: List.replicate 18 (.resume 0))
    d.executor.calls.length = 0 ∧ ¬d.executor.QueueServed := by
  intro d
  have hcalls : d.executor.calls.length = 0 := by decide +kernel
  have hqueue : d.executor.queue = [6] := by decide +kernel
  refine ⟨hcalls, ?_⟩
  intro hserved
  obtain ⟨_, _, _, call, hcall, _⟩ := hserved (by rw [hqueue]; simp)
  rw [List.eq_nil_of_length_eq_zero hcalls] at hcall
  cases hcall

end Flockctl.TaskExecutor
