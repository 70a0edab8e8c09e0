import Flockctl.Collections.Deliveries
import Flockctl.TaskExecutor.Daemon

/-!
# What one event does to the executor

The event loop has many events, but the executor itself knows few moves: fresh calls are
submitted, a call goes on to its next `await`, a key is granted, a task is put into the in-memory
queue, a session opens or closes, a run returns its key, or the process restarts. Every event of
the daemon is one of these moves, so a property of the pool, the queue and the sessions map is
checked move by move. Two of the moves are named, because what they meet in the executor decides
whether the bookkeeping stays right.
-/

namespace Flockctl.TaskExecutor

open Collections Ai Tasks

/-! ## What a call holds -/

/-- The key reserved for a call, from its reservation to its `finally` block. -/
def Phase.keyId : Phase → Option KeyId
  | .selecting _ _ _ => none
  | .reserved (.granted key) => some key.id
  | .reserved _ => none
  | .building key _ => some key.id
  | .live key _ _ => some key.id
  | .finishing key => some key.id

/-- The session a call is running. -/
def Phase.session : Phase → Option SessionId
  | .live _ session _ => some session
  | _ => none

/-- The call has been granted a key and its `_run` has not ended. -/
def Phase.underway : Phase → Bool
  | .reserved (.granted _) => true
  | .building _ _ => true
  | .live _ _ _ => true
  | _ => false

/-- The call is inside `_run`. -/
def Phase.inRun : Phase → Bool
  | .building _ _ => true
  | .live _ _ _ => true
  | _ => false

/-- The call has been answered by nothing but `selectKeyForTask` so far. -/
def Phase.isSelecting : Phase → Bool
  | .selecting _ _ _ => true
  | _ => false

namespace Call

def grant (call : Call) : Option (TaskId × KeyId) := call.phase.keyId.map (call.taskId, ·)

def openSession (call : Call) : Option (TaskId × SessionId) :=
  call.phase.session.map (call.taskId, ·)

def underwayTask (call : Call) : Option TaskId :=
  if call.phase.underway then some call.taskId else none

end Call

namespace Executor

/-- The calls in no particular order. -/
def inFlight (executor : Executor) : Multiset Call := executor.calls

/-- The keys granted to the runs in progress. -/
def grants (executor : Executor) : Multiset (TaskId × KeyId) :=
  executor.inFlight.filterMap Call.grant

/-- The sessions that have been started and have not ended. -/
def openSessions (executor : Executor) : Multiset (TaskId × SessionId) :=
  executor.inFlight.filterMap Call.openSession

/-- The tasks with a run ahead or in progress, once for each such run. -/
def underway (executor : Executor) : Multiset TaskId :=
  executor.inFlight.filterMap Call.underwayTask

/-- The calls but the `i`-th one. -/
def others (executor : Executor) (i : ℕ) : Multiset Call := ↑(executor.calls.eraseIdx i)

theorem inFlight_eq {executor : Executor} {i : ℕ} {call : Call}
    (h : executor.calls[i]? = some call) : executor.inFlight = call ::ₘ executor.others i := by
  obtain ⟨hi, hcall⟩ := List.getElem?_eq_some_iff.mp h
  have hperm := List.getElem_cons_eraseIdx_perm hi
  rw [hcall] at hperm
  exact (Multiset.coe_eq_coe.mpr hperm).symm

section Holdings

variable {α : Type} {f : Call → Option α} {executor : Executor} {i : ℕ} {call next : Call}

theorem held_of_some (h : executor.calls[i]? = some call) {x : α} (hx : f call = some x) :
    executor.inFlight.filterMap f = x ::ₘ (executor.others i).filterMap f := by
  rw [inFlight_eq h, Multiset.filterMap_cons_some f call _ hx]

theorem held_of_none (h : executor.calls[i]? = some call) (hx : f call = none) :
    executor.inFlight.filterMap f = (executor.others i).filterMap f := by
  rw [inFlight_eq h, Multiset.filterMap_cons_none call _ hx]

/-- Calls that hold nothing are appended. -/
theorem held_append_of_none (calls : List Call) {fresh : List Call}
    (hfresh : ∀ call ∈ fresh, f call = none) :
    (↑(calls ++ fresh) : Multiset Call).filterMap f = (↑calls : Multiset Call).filterMap f := by
  have hnone : fresh.filterMap f = [] := List.filterMap_eq_nil_iff.mpr hfresh
  rw [Multiset.filterMap_coe, List.filterMap_append, hnone, List.append_nil,
    Multiset.filterMap_coe]

theorem inFlight_push (executor : Executor) (call : Call) :
    (executor.push call).inFlight = call ::ₘ executor.inFlight :=
  Multiset.coe_eq_coe.mpr List.perm_append_comm

/-- The call `next` takes the place of the `i`-th one. -/
theorem next_eq (executor : Executor) (i : ℕ) (next : Call) :
    (↑(executor.calls.eraseIdx i ++ [next]) : Multiset Call) = next ::ₘ executor.others i :=
  Multiset.coe_eq_coe.mpr List.perm_append_comm

theorem held_next_of_some {x : α} (hx : f next = some x) :
    (↑(executor.calls.eraseIdx i ++ [next]) : Multiset Call).filterMap f =
      x ::ₘ (executor.others i).filterMap f := by
  rw [next_eq, Multiset.filterMap_cons_some f next _ hx]

theorem held_next_of_none (hx : f next = none) :
    (↑(executor.calls.eraseIdx i ++ [next]) : Multiset Call).filterMap f =
      (executor.others i).filterMap f := by
  rw [next_eq, Multiset.filterMap_cons_none next _ hx]

/-- A call has gone on with what it held. -/
theorem held_next_of_eq (h : executor.calls[i]? = some call) (hx : f next = f call) :
    (↑(executor.calls.eraseIdx i ++ [next]) : Multiset Call).filterMap f =
      executor.inFlight.filterMap f := by
  cases hcall : f call with
  | none => rw [held_next_of_none (hx.trans hcall), held_of_none h hcall]
  | some x => rw [held_next_of_some (hx.trans hcall), held_of_some h hcall]

end Holdings

end Executor

/-! ## Moves -/

/-- The two moves a discipline may speak about: `reserveForTask` grants a key to a task, and a
task is put into the queue. -/
inductive Act
  | plain
  | grant (taskId : TaskId) (keyId : KeyId)
  | enqueue (taskId : TaskId)
  deriving DecidableEq, Repr

def Act.isGrant : Act → Bool
  | .grant _ _ => true
  | _ => false

/-- Calls at their first `await`. -/
def Submitted (fresh : List Call) : Prop := ∀ call ∈ fresh, call.phase.isSelecting = true

/-- One move of the executor. -/
inductive Move (e : Executor) : Act → Executor → Prop
  | submit (fresh : List Call) (hfresh : Submitted fresh) :
      Move e .plain { e with calls := e.calls ++ fresh }
  /-- a call reaches its next `await` with what it holds -/
  | goOn (i : ℕ) (call next : Call) (hcall : e.calls[i]? = some call)
      (htask : next.taskId = call.taskId) (hkey : next.phase.keyId = call.phase.keyId)
      (hunderway : next.phase.underway = true → call.phase.underway = true)
      (hsession : call.phase.session = none) (hnext : next.phase.session = none) :
      Move e .plain { e with calls := e.calls.eraseIdx i ++ [next] }
  | grant (i : ℕ) (call next : Call) (hcall : e.calls[i]? = some call) (key : AiKey)
      (htask : next.taskId = call.taskId) (hselecting : call.phase.isSelecting = true)
      (hnext : next.phase = .reserved (.granted key))
      (hfree : e.pool.isSaturated key.id = false) :
      Move e (.grant call.taskId key.id)
        { e with
          pool := e.pool.reserve call.taskId key.id
          calls := e.calls.eraseIdx i ++ [next] }
  /-- `reserveForTask` has rejected and the call returns -/
  | discard (i : ℕ) (call : Call) (hcall : e.calls[i]? = some call)
      (hkey : call.phase.keyId = none) (hsession : call.phase.session = none) :
      Move e .plain { e with calls := e.calls.eraseIdx i }
  /-- the call returns and its task waits in the queue -/
  | enqueue (i : ℕ) (call : Call) (hcall : e.calls[i]? = some call)
      (hphase : call.phase = .reserved .enqueue) :
      Move e (.enqueue call.taskId) ((e.resumed i).enqueue call.taskId)
  | openSession (i : ℕ) (call next : Call) (hcall : e.calls[i]? = some call)
      (htask : next.taskId = call.taskId) (hkey : next.phase.keyId = call.phase.keyId)
      (hunderway : call.phase.underway = true) (session : SessionId)
      (hsession : call.phase.session = none) (hnext : next.phase.session = some session) :
      Move e .plain
        { e with
          sessions := e.sessions.set call.taskId session
          calls := e.calls.eraseIdx i ++ [next] }
  | closeSession (i : ℕ) (call next : Call) (hcall : e.calls[i]? = some call)
      (htask : next.taskId = call.taskId) (hkey : next.phase.keyId = call.phase.keyId)
      (session : SessionId) (hsession : call.phase.session = some session)
      (hunderway : next.phase.underway = false) :
      Move e .plain
        { e with
          sessions := e.sessions.delete call.taskId
          calls := e.calls.eraseIdx i ++ [next] }
  /-- the `finally` block: the key is returned and the queue is executed again -/
  | finish (i : ℕ) (call : Call) (hcall : e.calls[i]? = some call) (keyId : KeyId)
      (hkey : call.phase.keyId = some keyId) (hunderway : call.phase.underway = false)
      (fresh : List Call) (hfresh : Submitted fresh) :
      Move e .plain
        { e with
          pool := e.pool.release call.taskId
          queue := []
          calls := e.calls.eraseIdx i ++ fresh }
  | dequeue (queue : List TaskId) (hqueue : queue.Sublist e.queue) :
      Move e .plain { e with queue := queue }
  | restart (fresh : List Call) (hfresh : Submitted fresh) :
      Move e .plain { pool := e.pool.reset, calls := fresh }

namespace Move

theorem stay (e : Executor) : Move e .plain e := dequeue e.queue (List.Sublist.refl _)

end Move

/-- The move an event asks for, read off the state it meets. -/
def Executor.actOf (executor : Executor) (i : ℕ) : Act :=
  match executor.calls[i]? with
  | some ⟨id, .selecting _ _ (.ok key)⟩ =>
    if executor.pool.isSaturated key.id then .plain else .grant id key.id
  | some ⟨id, .reserved .enqueue⟩ => .enqueue id
  | _ => .plain

def Daemon.act (d : Daemon) : Event → Act
  | .resume i => d.executor.actOf i
  | _ => .plain

namespace Daemon

variable (d : Daemon)

@[simp] theorem executor_writeStatus (writer : Writer) (id : TaskId)
    (next : TaskStatus) (also : TaskRow → TaskRow) :
    (d.writeStatus writer id next also).executor = d.executor := rfl

@[simp] theorem executor_finalizeSuccess (id : TaskId) (requiresApproval : Bool) :
    (d.finalizeSuccess id requiresApproval).executor = d.executor := by
  unfold finalizeSuccess
  split <;> rfl

@[simp] theorem executor_finalizeError (id : TaskId) (status : TaskStatus) :
    (d.finalizeError id status).executor = d.executor := by
  unfold finalizeError
  split <;> rfl

@[simp] theorem executor_scheduleRetry (id : TaskId) :
    (d.scheduleRetry id).executor = d.executor := by
  unfold scheduleRetry
  split
  · rfl
  · split <;> rfl

@[simp] theorem executor_handleRunError (id : TaskId) (err : RunError) :
    (d.handleRunError id err).executor = d.executor := by
  unfold handleRunError
  split
  · rfl
  · split
    · rfl
    · split <;> simp

@[simp] theorem executor_settleSession (id : TaskId) (requiresApproval : Bool)
    (outcome : SessionOutcome) :
    (d.settleSession id requiresApproval outcome).executor = d.executor := by
  cases outcome <;> simp [settleSession]

/-! ## Submitting calls -/

/-- Fresh calls are appended and nothing else changes. -/
def Submits (d d' : Daemon) : Prop :=
  ∃ fresh, Submitted fresh ∧
    d'.executor = { d.executor with calls := d.executor.calls ++ fresh }

theorem submitted_nil : Submitted [] := by
  intro call hcall
  cases hcall

theorem submitted_append {fresh more : List Call} (hfresh : Submitted fresh)
    (hmore : Submitted more) : Submitted (fresh ++ more) := by
  intro call hcall
  rcases List.mem_append.mp hcall with hcall | hcall
  · exact hfresh call hcall
  · exact hmore call hcall

theorem submitted_submit (id : TaskId) : Submitted (d.submit id) := by
  intro call hcall
  unfold submit at hcall
  split at hcall
  · cases hcall
  · rw [List.mem_singleton] at hcall
    rw [hcall]
    rfl

theorem submitted_flatMap (ids : List TaskId) : Submitted (ids.flatMap d.submit) := by
  intro call hcall
  obtain ⟨id, _, hsubmit⟩ := List.mem_flatMap.mp hcall
  exact d.submitted_submit id call hsubmit

namespace Submits

theorem of_executor_eq {d d' : Daemon} (h : d'.executor = d.executor) : Submits d d' :=
  ⟨[], submitted_nil, by rw [h, List.append_nil]⟩

theorem trans {d d' d'' : Daemon} (h : Submits d d') (h' : Submits d' d'') : Submits d d'' := by
  obtain ⟨fresh, hfresh, hd'⟩ := h
  obtain ⟨more, hmore, hd''⟩ := h'
  refine ⟨fresh ++ more, submitted_append hfresh hmore, ?_⟩
  rw [hd'', hd']
  simp

theorem execute (d : Daemon) (id : TaskId) : Submits d (d.execute id) :=
  ⟨d.submit id, d.submitted_submit id, rfl⟩

/-- A loop whose every round submits calls submits calls. -/
theorem foldl {α : Type} {round : Daemon → α → Daemon} (hround : ∀ d x, Submits d (round d x))
    (d : Daemon) (xs : List α) : Submits d (xs.foldl round d) := by
  induction xs generalizing d with
  | nil => exact of_executor_eq rfl
  | cons x xs ih => exact (hround d x).trans (ih (round d x))

theorem createTask (d : Daemon) (task : NewTask) : Submits d (d.createTask task) :=
  (of_executor_eq rfl).trans (execute { d with tasks := d.tasks.insert task.toRow } _)

theorem executePlanTask (d : Daemon) (plan : PlanExecution) :
    Submits d (d.executePlanTask plan) := by
  unfold Daemon.executePlanTask
  split
  · exact execute d _
  · exact createTask d plan.task

theorem resumeFromRateLimit (d : Daemon) (id : TaskId) :
    Submits d (d.resumeFromRateLimit id) := by
  unfold Daemon.resumeFromRateLimit
  split
  · exact (of_executor_eq (executor_writeStatus ..)).trans (execute _ id)
  · exact of_executor_eq rfl

theorem answerQuestion (d : Daemon) (id : TaskId) (pending accepted : Bool) :
    Submits d (d.answerQuestion id pending accepted) := by
  unfold Daemon.answerQuestion
  split
  · split
    · split <;> exact of_executor_eq rfl
    · split
      · exact (of_executor_eq (executor_writeStatus ..)).trans (execute _ id)
      · exact of_executor_eq rfl
  · exact of_executor_eq rfl

theorem timerFired (d : Daemon) (id : TaskId) : Submits d (d.timerFired id) := by
  unfold Daemon.timerFired
  split
  · exact of_executor_eq rfl
  · exact (of_executor_eq rfl).trans (resumeFromRateLimit _ id)

theorem retryFired (d : Daemon) (i : ℕ) : Submits d (d.retryFired i) := by
  unfold Daemon.retryFired
  split
  · exact of_executor_eq rfl
  · exact (of_executor_eq rfl).trans (execute { d with retries := d.retries.eraseIdx i } _)

/-- Everything the boot sequence does after the restart. -/
theorem boot (d : Daemon) (orphans : List TaskId) (resumed : List PlanExecution) :
    Submits d.restarted (d.boot orphans resumed) := by
  have hsweep : Submits d.restarted (orphans.foldl sweepOrphan d.restarted) := by
    apply foldl
    intro d id
    unfold sweepOrphan
    split <;> exact of_executor_eq rfl
  have hreset (d : Daemon) : Submits d d.resetStaleTasks := by
    apply foldl
    intro d id
    exact of_executor_eq rfl
  have hrecover (d : Daemon) : Submits d d.recoverFromDatabase := by
    apply foldl
    intro d id
    unfold recoverTimer
    split <;> exact of_executor_eq rfl
  have hplan (d : Daemon) : Submits d (resumed.foldl Daemon.executePlanTask d) :=
    foldl executePlanTask d resumed
  have hstale (d : Daemon) (ids : List TaskId) : Submits d (ids.foldl Daemon.execute d) :=
    foldl execute d ids
  exact hsweep.trans ((hreset _).trans ((hrecover _).trans ((hplan _).trans (hstale _ _))))

theorem move {d d' : Daemon} (h : Submits d d') : Move d.executor .plain d'.executor := by
  obtain ⟨fresh, hfresh, hd'⟩ := h
  rw [hd']
  exact Move.submit fresh hfresh

end Submits

/-! ## Every event is one move -/

theorem move_resume (i : ℕ) :
    Move d.executor (d.executor.actOf i) (d.resume i).executor := by
  unfold resume Executor.actOf
  rcases hcall : d.executor.calls[i]? with _ | ⟨id, phase⟩
  · exact Move.stay d.executor
  cases phase with
  | selecting task saturatedKeyIds selected =>
    cases selected with
    | error message =>
      simp only [continueReserve]
      split
      · exact Move.goOn i _ ⟨id, .reserved (.failed message)⟩ hcall rfl rfl
          (by simp [Phase.underway]) rfl rfl
      · exact Move.goOn i _ ⟨id, .reserved .enqueue⟩ hcall rfl rfl (by simp [Phase.underway]) rfl rfl
    | ok key =>
      simp only [continueReserve]
      cases hfree : d.executor.pool.isSaturated key.id with
      | true =>
        have hsaturated : (d.executor.resumed i).pool.isSaturated key.id = true := hfree
        rw [if_pos hsaturated]
        exact Move.goOn i _ ⟨id, .selecting task (saturatedKeyIds ++ [key.id]) _⟩ hcall
          rfl rfl (by simp [Phase.underway]) rfl rfl
      | false =>
        have hunsaturated : ¬(d.executor.resumed i).pool.isSaturated key.id = true := by
          change ¬d.executor.pool.isSaturated key.id = true
          simp [hfree]
        rw [if_neg hunsaturated]
        exact Move.grant i _ ⟨id, .reserved (.granted key)⟩ hcall key rfl rfl rfl hfree
  | reserved reservation =>
    cases reservation with
    | granted key =>
      simp only [continueExecute, startRun]
      split
      · exact Move.goOn i _ ⟨id, .finishing key⟩ hcall rfl rfl (by simp [Phase.underway]) rfl rfl
      · rename_i row _
        split
        · exact Move.goOn i _ ⟨id, .finishing key⟩ hcall rfl rfl (by simp [Phase.underway]) rfl rfl
        · exact Move.goOn i _ ⟨id, .building key row.requiresApproval⟩ hcall rfl rfl
            (by simp [Phase.underway]) rfl rfl
    | enqueue => exact Move.enqueue i _ hcall rfl
    | failed message => exact Move.discard i _ hcall rfl rfl
  | building key requiresApproval => exact Move.stay d.executor
  | live key session requiresApproval => exact Move.stay d.executor
  | finishing key =>
    exact Move.finish i _ hcall key.id rfl rfl _ (submitted_flatMap _ d.executor.queue)

theorem move_contextBuilt (i : ℕ) (outcome : Option RunContext) :
    Move d.executor .plain (d.contextBuilt i outcome).executor := by
  unfold contextBuilt
  split
  · rename_i id key requiresApproval hcall
    cases outcome with
    | none => exact Move.goOn i _ ⟨id, .finishing key⟩ hcall rfl rfl (by simp [Phase.underway]) rfl rfl
    | some context =>
      exact Move.openSession i _ ⟨id, .live key d.nextSession _⟩ hcall rfl rfl rfl
        d.nextSession rfl rfl
  · exact Move.stay d.executor

theorem move_sessionEnded (i : ℕ) (outcome : SessionOutcome) :
    Move d.executor .plain (d.sessionEnded i outcome).executor := by
  unfold sessionEnded
  split
  · rename_i id key session requiresApproval hcall
    simp only [closeSession, executor_settleSession]
    exact Move.closeSession i _ ⟨id, .finishing key⟩ hcall rfl rfl session rfl rfl
  · exact Move.stay d.executor

theorem move_cancelRoute (id : TaskId) :
    Move d.executor .plain (d.cancelRoute id).executor := by
  unfold cancelRoute
  split
  · exact Move.dequeue _ List.erase_sublist
  · exact Move.stay d.executor

theorem move_boot (orphans : List TaskId) (resumed : List PlanExecution) :
    Move d.executor .plain (d.boot orphans resumed).executor := by
  obtain ⟨fresh, hfresh, hboot⟩ := Submits.boot d orphans resumed
  rw [hboot]
  exact Move.restart fresh hfresh

end Daemon

/-- Every event of the daemon is one move of the executor. -/
theorem step_move (d : Daemon) (event : Event) :
    Move d.executor (d.act event) (step d event).executor := by
  cases event with
  | post task => exact (Daemon.Submits.createTask d task).move
  | execute id => exact (Daemon.Submits.execute d id).move
  | planTask plan => exact (Daemon.Submits.executePlanTask d plan).move
  | resume i => exact d.move_resume i
  | contextBuilt i outcome => exact d.move_contextBuilt i outcome
  | sessionEnded i outcome => exact d.move_sessionEnded i outcome
  | questionEmitted i =>
    have hsame : (d.questionEmitted i).executor = d.executor := by
      unfold Daemon.questionEmitted
      split
      · split <;> rfl
      · rfl
    exact (Daemon.Submits.of_executor_eq hsame).move
  | answerQuestion id pending accepted =>
    exact (Daemon.Submits.answerQuestion d id pending accepted).move
  | cancel id => exact d.move_cancelRoute id
  | approve id =>
    have hsame : (d.approveRoute id).executor = d.executor := by
      unfold Daemon.approveRoute
      split <;> rfl
    exact (Daemon.Submits.of_executor_eq hsame).move
  | reject id =>
    have hsame : (d.rejectRoute id).executor = d.executor := by
      unfold Daemon.rejectRoute
      repeat' split
      all_goals rfl
    exact (Daemon.Submits.of_executor_eq hsame).move
  | rollbackDone i =>
    have hsame : (d.rollbackDone i).executor = d.executor := by
      unfold Daemon.rollbackDone
      split <;> rfl
    exact (Daemon.Submits.of_executor_eq hsame).move
  | timerFired id => exact (Daemon.Submits.timerFired d id).move
  | retryFired i => exact (Daemon.Submits.retryFired d i).move
  | deleteProject projectId => exact Move.stay d.executor
  | edit ai overBudget => exact Move.stay d.executor
  | shutdown => exact Move.dequeue [] (List.nil_sublist _)
  | boot orphans resumed => exact d.move_boot orphans resumed

end Flockctl.TaskExecutor
