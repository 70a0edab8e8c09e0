import Flockctl.TaskExecutor.OrderlyRuns

/-!
# Who may run a task next

A task is claimed as often as it has a call of `execute` before its `finally` block, a place in the
queue or a retry timeout. Every event but a call of `execute` from outside moves claims or drops
them, so a count of the claims after an event is bounded by the claims before it and the tasks the
event submits. A retried task is never claimed again as long as it is not submitted again.
-/

namespace Flockctl.TaskExecutor

open Collections Ai Tasks Transition

namespace Daemon

/-! ## Claims -/

/-- The claimed tasks, each as often as it is claimed. -/
def claimants (d : Daemon) : Multiset TaskId := d.tickets.map Prod.fst

theorem ticketed_iff_mem_claimants {d : Daemon} {id : TaskId} :
    d.ticketed id ↔ id ∈ d.claimants := Iff.rfl

section Claims

variable (d : Daemon)

theorem claimants_push_of_some (call : Call) {stage : Stage}
    (hstage : call.phase.stage = some stage) :
    (d.push call).claimants = call.taskId ::ₘ d.claimants := by
  have hticket : call.ticket = some (call.taskId, stage) := by
    rw [Call.ticket, hstage]
    rfl
  rw [claimants, d.tickets_push_of_some hticket, Multiset.map_cons]
  rfl

theorem claimants_push_of_none (call : Call) (hstage : call.phase.stage = none) :
    (d.push call).claimants = d.claimants := by
  have hticket : call.ticket = none := by
    rw [Call.ticket, hstage]
    rfl
  rw [claimants, d.tickets_push_of_none hticket]
  rfl

/-- The `i`-th call has been resumed. -/
abbrev resumedAt (i : ℕ) : Daemon := { d with executor := d.executor.resumed i }

theorem claimants_resumed_of_some {i : ℕ} {call : Call} {stage : Stage}
    (hcall : d.executor.calls[i]? = some call) (hstage : call.phase.stage = some stage) :
    d.claimants = call.taskId ::ₘ (d.resumedAt i).claimants := by
  have hticket : call.ticket = some (call.taskId, stage) := by
    rw [Call.ticket, hstage]
    rfl
  rw [claimants, d.tickets_resumed_of_some hcall hticket, Multiset.map_cons]
  rfl

theorem claimants_resumed_of_none {i : ℕ} {call : Call}
    (hcall : d.executor.calls[i]? = some call) (hstage : call.phase.stage = none) :
    d.claimants = (d.resumedAt i).claimants := by
  have hticket : call.ticket = none := by
    rw [Call.ticket, hstage]
    rfl
  rw [claimants, d.tickets_resumed_of_none hcall hticket]
  rfl

theorem claimants_execute_le (id : TaskId) : (d.execute id).claimants ≤ id ::ₘ d.claimants := by
  cases hrow : d.tasks.get id with
  | none =>
    rw [execute_of_none hrow]
    exact Multiset.le_cons_self _ _
  | some row =>
    rw [execute_of_some hrow]
    exact (d.claimants_push_of_some _ rfl).le

theorem claimants_createTask_le (task : NewTask) :
    (d.createTask task).claimants ≤ d.tasks.nextId ::ₘ d.claimants :=
  claimants_execute_le { d with tasks := d.tasks.insert task.toRow } d.tasks.nextId

theorem claimants_continueReserve (id : TaskId) (task : TaskKeys) (saturatedKeyIds : List KeyId)
    (selected : Except String AiKey) :
    (d.continueReserve id task saturatedKeyIds selected).claimants = id ::ₘ d.claimants := by
  have hpush (phase : Phase) (hstage : phase.stage = some .waiting) :
      (d.push ⟨id, phase⟩).claimants = id ::ₘ d.claimants :=
      d.claimants_push_of_some _ hstage
  cases selected with
  | error message => exact hpush _ rfl
  | ok key =>
    simp only [continueReserve]
    split
    · exact hpush _ rfl
    · exact hpush (.reserved (.granted key)) rfl

theorem claimants_startRun_le (id : TaskId) (key : AiKey) :
    (d.startRun id key).claimants ≤ id ::ₘ d.claimants := by
  have hstopped (d : Daemon) : (d.push ⟨id, .finishing key⟩).claimants ≤ id ::ₘ d.claimants := by
    rw [d.claimants_push_of_none _ rfl]
    exact Multiset.le_cons_self _ _
  unfold startRun
  split
  · exact hstopped d
  · split
    · exact hstopped _
    · exact (claimants_push_of_some _ _ rfl).le

theorem claimants_enqueue_le (id : TaskId) :
    claimants { d with executor := d.executor.enqueue id } ≤ id ::ₘ d.claimants := by
  have hqueue : (d.executor.enqueue id).queue.Sublist (d.executor.queue ++ [id]) := by
    change List.Sublist (if _ then _ else _) _
    split
    · exact List.sublist_append_left _ _
    · exact List.Sublist.refl _
  have hwaiting : waitingTickets (d.executor.enqueue id).queue ≤
      (id, .waiting) ::ₘ waitingTickets d.executor.queue := by
    calc waitingTickets (d.executor.enqueue id).queue
        ≤ waitingTickets (d.executor.queue ++ [id]) :=
          Multiset.coe_le.mpr (hqueue.map _).subperm
      _ = (id, .waiting) ::ₘ waitingTickets d.executor.queue := by
          rw [waitingTickets, List.map_append]
          exact Multiset.coe_eq_coe.mpr List.perm_append_comm
  have htickets : tickets { d with executor := d.executor.enqueue id } ≤
      (id, .waiting) ::ₘ d.tickets := by
    calc tickets { d with executor := d.executor.enqueue id }
        = d.executor.tickets + (waitingTickets (d.executor.enqueue id).queue +
            waitingTickets d.retries) := rfl
      _ ≤ d.executor.tickets + ((id, .waiting) ::ₘ waitingTickets d.executor.queue +
            waitingTickets d.retries) := by gcongr
      _ = (id, .waiting) ::ₘ d.tickets := by
          rw [Multiset.cons_add, Multiset.add_cons]
          rfl
  have hle := Multiset.map_le_map (f := Prod.fst) htickets
  rw [Multiset.map_cons] at hle
  exact hle

theorem claimants_continueExecute_le (id : TaskId) (reservation : Reservation) :
    (d.continueExecute id reservation).claimants ≤ id ::ₘ d.claimants := by
  cases reservation with
  | granted key => exact d.claimants_startRun_le id key
  | enqueue => exact d.claimants_enqueue_le id
  | failed message => exact Multiset.le_cons_self _ _

theorem claimants_finishRun_le (id : TaskId) : (d.finishRun id).claimants ≤ d.claimants :=
  Multiset.map_le_map (d.tickets_finishRun_le id)

theorem claimants_resume_le (i : ℕ) : (d.resume i).claimants ≤ d.claimants := by
  unfold resume
  split
  · rename_i id task saturatedKeyIds selected hcall
    rw [d.claimants_resumed_of_some hcall rfl]
    exact (claimants_continueReserve _ id task saturatedKeyIds selected).le
  · rename_i id reservation hcall
    rw [d.claimants_resumed_of_some hcall rfl]
    exact claimants_continueExecute_le _ id reservation
  · rename_i id key hcall
    rw [d.claimants_resumed_of_none hcall rfl]
    exact claimants_finishRun_le _ id
  · exact le_refl _

theorem claimants_contextBuilt_le (i : ℕ) (outcome : Option RunContext) :
    (d.contextBuilt i outcome).claimants ≤ d.claimants := by
  unfold contextBuilt
  split
  · rename_i id key requiresApproval hcall
    rw [d.claimants_resumed_of_some hcall rfl]
    cases outcome with
    | none =>
      have hpushed := claimants_push_of_none
        ((d.resumedAt i).writeStatus .contextFailed id .failed) ⟨id, .finishing key⟩ rfl
      exact hpushed.le.trans (Multiset.le_cons_self _ _)
    | some context =>
      let started : Daemon := { (d.resumedAt i).startSession id key requiresApproval context with
        executor := d.executor.resumed i }
      exact (started.claimants_push_of_some ⟨id, .live key d.nextSession
        (requiresApproval.getD (context.projectRequiresApproval.getD false))⟩ rfl).le
  · exact le_refl _

/-- The row a failing session is retried from, if it is: the error is no shutdown, no provider
limit, no timeout and no abort, and the budget of the row is not used up. -/
def retriedRow (id : TaskId) (err : RunError) : Option TaskRow :=
  if err.shutdown || (d.shuttingDown && err.name == .abortError) then none
  else if err.limit.isSome || classifyRunError err.name != .failed then none
  else (d.tasks.get id).filter canRetry

/-- The task an event retries, with its row. -/
def retried : Event → Option (TaskId × TaskRow)
  | .sessionEnded i (.error err) =>
    match d.executor.calls[i]? with
    | some ⟨id, .live _ _ _⟩ => (d.retriedRow id err).map (id, ·)
    | _ => none
  | _ => none

theorem claimants_finalizeSuccess (id : TaskId) (requiresApproval : Bool) :
    (d.finalizeSuccess id requiresApproval).claimants = d.claimants := by
  unfold finalizeSuccess
  split <;> rfl

theorem claimants_finalizeError (id : TaskId) (status : TaskStatus) :
    (d.finalizeError id status).claimants = d.claimants := by
  unfold finalizeError
  split <;> rfl

/-- The status `finalizeError` leaves. -/
def finalStatus (id : TaskId) (status : TaskStatus) : TaskStatus :=
  if d.statusOf id = some .cancelled then .cancelled else status

theorem get_finalizeError (id : TaskId) (status : TaskStatus) (other : TaskId) :
    (d.finalizeError id status).tasks.get other =
      if other = id then
        (d.tasks.get id).map fun row ↦ { row with status := d.finalStatus id status }
      else d.tasks.get other := by
  unfold finalizeError finalStatus
  split
  · rename_i hcancelled
    obtain ⟨row, hrow, hstatus⟩ := (d.statusOf_eq_some_iff id _).mp hcancelled
    split
    · rename_i hother
      rw [hother, hrow, Option.map_some, ← hstatus]
    · rfl
  · exact d.get_writeStatus _ _ _ _ _

theorem nextId_finalizeError (id : TaskId) (status : TaskStatus) :
    (d.finalizeError id status).tasks.nextId = d.tasks.nextId := by
  unfold finalizeError
  split <;> rfl

/-- `scheduleRetry` for a row whose budget is used up does nothing. -/
theorem scheduleRetry_of_none {id : TaskId} (hnone : (d.tasks.get id).filter canRetry = none) :
    d.scheduleRetry id = d := by
  unfold scheduleRetry
  split
  · rfl
  · rename_i row hrow
    rw [hrow] at hnone
    rw [if_neg]
    intro hcan
    simp [Option.filter, hcan] at hnone

theorem scheduleRetry_of_some {id : TaskId} {row : TaskRow}
    (hsome : (d.tasks.get id).filter canRetry = some row) :
    d.scheduleRetry id =
      { d with
        tasks := d.tasks.insert (retryRow id row)
        retries := d.retries ++ [d.tasks.nextId] } := by
  obtain ⟨hrow, hcan⟩ := Option.filter_eq_some_iff.mp hsome
  unfold scheduleRetry
  rw [hrow]
  simp only
  rw [if_pos hcan]

/-- The daemon `scheduleRetry` leaves when it retries the row of a task. -/
def withRetry (id : TaskId) (row : TaskRow) : Daemon :=
  { d with
    tasks := d.tasks.insert (retryRow id row)
    retries := d.retries ++ [d.tasks.nextId] }

theorem retriedRow_eq_some {id : TaskId} {err : RunError} {row : TaskRow}
    (h : d.retriedRow id err = some row) :
    d.tasks.get id = some row ∧ canRetry row = true ∧
      d.handleRunError id err = (d.finalizeError id .failed).withRetry id row := by
  unfold retriedRow at h
  split at h
  · cases h
  · rename_i hrunning
    split at h
    · cases h
    · rename_i hplain
      obtain ⟨hrow, hcan⟩ := Option.filter_eq_some_iff.mp h
      simp only [Bool.or_eq_true, Option.isSome_iff_ne_none, bne_iff_ne, not_or, not_not] at hplain
      have hfinal : ((d.finalizeError id .failed).tasks.get id).filter canRetry =
          some { row with status := d.finalStatus id .failed } := by
        rw [get_finalizeError, if_pos rfl, hrow]
        exact Option.filter_eq_some_iff.mpr ⟨rfl, hcan⟩
      refine ⟨hrow, hcan, ?_⟩
      unfold handleRunError
      rw [if_neg hrunning, hplain.1]
      simp only
      rw [if_pos hplain.2, scheduleRetry_of_some _ hfinal]
      rfl

/-- Without a retry the error of a session is passed over, parks the task or ends it. -/
theorem handleRunError_of_none {id : TaskId} {err : RunError} (h : d.retriedRow id err = none) :
    d.handleRunError id err = d ∨
      (∃ resumeAt, d.handleRunError id err = d.parkRateLimited id resumeAt) ∨
      ∃ status, d.handleRunError id err = d.finalizeError id status := by
  unfold retriedRow at h
  unfold handleRunError
  split
  · exact Or.inl rfl
  · rename_i hrunning
    rw [if_neg hrunning] at h
    right
    cases hlimit : err.limit with
    | some resumeAt => exact Or.inl ⟨resumeAt, rfl⟩
    | none =>
      right
      simp only
      split
      · rename_i hfailed
        rw [if_neg (by simp [hlimit, hfailed])] at h
        refine ⟨.failed, scheduleRetry_of_none _ ?_⟩
        rw [get_finalizeError, if_pos rfl]
        cases hrow : d.tasks.get id with
        | none => rfl
        | some row =>
          rw [hrow] at h
          have hcan : canRetry row = false := by
            simpa [Option.filter] using h
          simp only [Option.map_some, Option.filter]
          rw [if_neg]
          intro hagain
          have hcan' : canRetry row = true := hagain
          rw [hcan] at hcan'
          cases hcan'
      · exact ⟨_, rfl⟩

theorem claimants_withRetry (id : TaskId) (row : TaskRow) :
    (d.withRetry id row).claimants = d.tasks.nextId ::ₘ d.claimants := by
  have hwaiting : waitingTickets (d.retries ++ [d.tasks.nextId]) =
      (d.tasks.nextId, .waiting) ::ₘ waitingTickets d.retries := by
    rw [waitingTickets, List.map_append]
    exact Multiset.coe_eq_coe.mpr List.perm_append_comm
  have htickets : (d.withRetry id row).tickets = (d.tasks.nextId, .waiting) ::ₘ d.tickets := by
    change d.executor.tickets + (_ + waitingTickets (d.retries ++ [d.tasks.nextId])) = _
    rw [hwaiting, Multiset.add_cons, Multiset.add_cons]
    rfl
  rw [claimants, htickets, Multiset.map_cons]
  rfl

/-- The task an event issues as a retry, if it does. -/
def retryIds (event : Event) : List TaskId :=
  if (d.retried event).isSome then [d.tasks.nextId] else []

/-- The claim of a session that has ended is gone, and a retry holds a claim of its own. -/
theorem claimants_sessionEnded_le {i : ℕ} {id : TaskId} {key : AiKey} {session : SessionId}
    {requiresApproval : Bool}
    (hcall : d.executor.calls[i]? = some ⟨id, .live key session requiresApproval⟩)
    (outcome : SessionOutcome) :
    id ::ₘ (d.sessionEnded i outcome).claimants ≤
      d.claimants + d.retryIds (.sessionEnded i outcome) := by
  have hclosed (settled : Daemon) (hsettled : settled.claimants ≤
      (d.resumedAt i).claimants + d.retryIds (.sessionEnded i outcome)) :
      id ::ₘ (settled.closeSession id key).claimants ≤
        d.claimants + d.retryIds (.sessionEnded i outcome) := by
    have hclose : (settled.closeSession id key).claimants = settled.claimants :=
      settled.claimants_push_of_none ⟨id, .finishing key⟩ rfl
    rw [hclose, d.claimants_resumed_of_some hcall rfl, Multiset.cons_add]
    exact (Multiset.cons_le_cons_iff _).mpr hsettled
  have hsettle : d.sessionEnded i outcome =
      ((d.resumedAt i).settleSession id requiresApproval outcome).closeSession id key := by
    unfold sessionEnded
    rw [hcall]
  rw [hsettle]
  apply hclosed
  cases outcome with
  | success =>
    rw [settleSession, claimants_finalizeSuccess]
    exact Multiset.le_add_right _ _
  | error err =>
    have hretried : d.retried (.sessionEnded i (.error err)) =
        (d.retriedRow id err).map (id, ·) := by
      simp only [retried, hcall]
    rw [settleSession, retryIds, hretried, Option.isSome_map]
    cases hrow : d.retriedRow id err with
    | some row =>
      obtain ⟨_, _, hhandled⟩ := (d.resumedAt i).retriedRow_eq_some hrow
      rw [hhandled, claimants_withRetry, nextId_finalizeError, claimants_finalizeError]
      exact (Multiset.singleton_add _ _).ge.trans (add_comm _ _).le
    | none =>
      rcases (d.resumedAt i).handleRunError_of_none hrow with hhandled | ⟨_, hhandled⟩ |
        ⟨status, hhandled⟩
      · rw [hhandled]
        exact Multiset.le_add_right _ _
      · rw [hhandled]
        exact Multiset.le_add_right _ _
      · rw [hhandled, claimants_finalizeError]
        exact Multiset.le_add_right _ _

/-- The task `executePlanTask` dispatches. -/
def dispatched (plan : PlanExecution) : TaskId :=
  (d.reusable plan.executionTaskId).getD d.tasks.nextId

theorem claimants_executePlanTask_le (plan : PlanExecution) :
    (d.executePlanTask plan).claimants ≤ d.dispatched plan ::ₘ d.claimants := by
  unfold executePlanTask dispatched
  split
  · rename_i id hreuse
    rw [hreuse]
    exact d.claimants_execute_le id
  · rename_i hreuse
    rw [hreuse]
    exact d.claimants_createTask_le plan.task

/-- The tasks the milestones resumed at boot dispatch, one plan task after the other. -/
def dispatchedAll (d : Daemon) : List PlanExecution → List TaskId
  | [] => []
  | plan :: plans => d.dispatched plan :: dispatchedAll (d.executePlanTask plan) plans

theorem claimants_executePlanTasks_le (plans : List PlanExecution) :
    (plans.foldl executePlanTask d).claimants ≤ ↑(d.dispatchedAll plans) + d.claimants := by
  induction plans generalizing d with
  | nil => exact (zero_add _).ge
  | cons plan plans ih =>
    calc (plans.foldl executePlanTask (d.executePlanTask plan)).claimants
        ≤ ↑((d.executePlanTask plan).dispatchedAll plans) + (d.executePlanTask plan).claimants :=
          ih _
      _ ≤ ↑((d.executePlanTask plan).dispatchedAll plans) +
            (d.dispatched plan ::ₘ d.claimants) := by
          gcongr
          exact d.claimants_executePlanTask_le plan
      _ = ↑(d.dispatchedAll (plan :: plans)) + d.claimants := by
          rw [Multiset.add_cons, dispatchedAll, ← Multiset.cons_coe, Multiset.cons_add]

theorem claimants_executes_le (ids : List TaskId) :
    (ids.foldl execute d).claimants ≤ ↑ids + d.claimants := by
  induction ids generalizing d with
  | nil => exact (zero_add _).ge
  | cons id ids ih =>
    calc (ids.foldl execute (d.execute id)).claimants
        ≤ ↑ids + (d.execute id).claimants := ih _
      _ ≤ ↑ids + (id ::ₘ d.claimants) := by
          gcongr
          exact d.claimants_execute_le id
      _ = ↑(id :: ids) + d.claimants := by
          rw [Multiset.add_cons, ← Multiset.cons_coe, Multiset.cons_add]

/-- A cold answer to the question of a task. -/
def answersCold (id : TaskId) (pending : Bool) : Bool :=
  pending && (d.executor.sessions.get id).isNone && d.statusOf id == some .waitingForInput

/-- A timer that finds its task parked. -/
def wakes (id : TaskId) : Bool :=
  (d.timers.get id).isSome && d.statusOf id == some .rateLimited

/-- The tasks of the rows `resetStaleTasks` reads once the orphans are swept. -/
def staleAfter (orphans : List TaskId) : List TaskId :=
  (orphans.foldl sweepOrphan d.restarted).staleIds

end Claims

/-- The tasks an event submits: those it calls `execute` for, apart from the calls and timeouts in
which they already wait, and the retry it issues. -/
def submissions (d : Daemon) : Event → List TaskId
  | .post _ => [d.tasks.nextId]
  | .execute id => if (d.tasks.get id).isSome then [id] else []
  | .planTask plan => [d.dispatched plan]
  | .sessionEnded i outcome => d.retryIds (.sessionEnded i outcome)
  | .answerQuestion id pending _ => if d.answersCold id pending then [id] else []
  | .timerFired id => if d.wakes id then [id] else []
  | .boot orphans resumed =>
    (d.beforeMilestones orphans).dispatchedAll resumed ++ d.staleAfter orphans
  | _ => []

/-- The daemon an event meets; boot begins with an empty process. -/
def onset (d : Daemon) : Event → Daemon
  | .boot _ _ => d.restarted
  | _ => d

theorem cons_claims (id : TaskId) (claims : Multiset TaskId) :
    id ::ₘ claims ≤ claims + ↑[id] := by
  rw [Multiset.coe_singleton, add_comm, Multiset.singleton_add]

theorem claimants_timerFired_le (d : Daemon) (id : TaskId) :
    (d.timerFired id).claimants ≤ d.claimants + ↑(d.submissions (.timerFired id)) := by
  unfold timerFired resumeFromRateLimit
  split
  · exact Multiset.le_add_right _ _
  · rename_i hfound
    split
    · rename_i hparked
      have hparked' : d.statusOf id = some .rateLimited := hparked
      have hwakes : d.submissions (.timerFired id) = [id] :=
        if_pos (by simp [wakes, hfound, hparked'])
      rw [hwakes]
      exact (claimants_execute_le _ id).trans (cons_claims _ _)
    · exact Multiset.le_add_right _ _

theorem claimants_answerQuestion_le (d : Daemon) (id : TaskId) (pending accepted : Bool) :
    (d.answerQuestion id pending accepted).claimants ≤
      d.claimants + ↑(d.submissions (.answerQuestion id pending accepted)) := by
  unfold answerQuestion
  split
  · rename_i hpending
    split
    · split <;> exact Multiset.le_add_right _ _
    · rename_i hcold
      split
      · rename_i hwaiting
        have hanswers : d.submissions (.answerQuestion id pending accepted) = [id] :=
          if_pos (by simp [answersCold, hpending, hcold, hwaiting])
        rw [hanswers]
        exact (claimants_execute_le _ id).trans (cons_claims _ _)
      · exact Multiset.le_add_right _ _
  · exact Multiset.le_add_right _ _

theorem claimants_executeEvent_le (d : Daemon) (id : TaskId) :
    (d.execute id).claimants ≤ d.claimants + ↑(d.submissions (.execute id)) := by
  cases hrow : d.tasks.get id with
  | none =>
    have hsubmit : d.execute id = d := by
      rw [execute, submit, hrow]
      simp
    rw [hsubmit]
    exact Multiset.le_add_right _ _
  | some row =>
    have hsubmits : d.submissions (.execute id) = [id] := if_pos (by rw [hrow]; rfl)
    rw [hsubmits]
    exact (d.claimants_execute_le id).trans (cons_claims _ _)

theorem claimants_retryFired_le (d : Daemon) (i : ℕ) :
    (d.retryFired i).claimants ≤ d.claimants := by
  unfold retryFired
  split
  · exact le_refl _
  · rename_i id hretry
    have hclaimants : d.claimants =
        id ::ₘ claimants { d with retries := d.retries.eraseIdx i } := by
      rw [claimants, tickets_of_retry hretry, Multiset.map_cons]
      rfl
    rw [hclaimants]
    exact claimants_execute_le _ id

theorem claimants_cancelRoute_le (d : Daemon) (id : TaskId) :
    (d.cancelRoute id).claimants ≤ d.claimants := by
  unfold cancelRoute
  split
  · have hwaiting : waitingTickets (d.executor.queue.erase id) ≤
        waitingTickets d.executor.queue :=
      Multiset.coe_le.mpr (List.erase_sublist.map _).subperm
    apply Multiset.map_le_map
    change d.executor.tickets + (waitingTickets (d.executor.queue.erase id) + _) ≤
      d.executor.tickets + (waitingTickets d.executor.queue + _)
    gcongr
    exact le_refl _
  · exact le_refl _

theorem claimants_shutdown_le (d : Daemon) : d.shutdown.claimants ≤ d.claimants := by
  apply Multiset.map_le_map
  change d.executor.tickets + (0 + waitingTickets d.retries) ≤
    d.executor.tickets + (waitingTickets d.executor.queue + waitingTickets d.retries)
  gcongr
  exact Multiset.zero_le _

/-- Up to the milestones boot claims nothing. -/
theorem claimants_beforeMilestones (d : Daemon) (orphans : List TaskId) :
    (d.beforeMilestones orphans).claimants = 0 := by
  have hsweep (d : Daemon) (id : TaskId) (h : d.claimants = 0) :
      (d.sweepOrphan id).claimants = 0 := by
    unfold sweepOrphan
    split <;> exact h
  have hreset (d : Daemon) (id : TaskId) (h : d.claimants = 0) :
      (d.resetStale id).claimants = 0 := h
  have hrecover (d : Daemon) (id : TaskId) (h : d.claimants = 0) :
      (d.recoverTimer id).claimants = 0 := by
    unfold recoverTimer
    split <;> exact h
  have hstart : d.restarted.claimants = 0 := rfl
  have hswept := run_preserves hsweep hstart orphans
  exact run_preserves hrecover (run_preserves hreset hswept _) _

theorem claimants_boot_le (d : Daemon) (orphans : List TaskId) (resumed : List PlanExecution) :
    (d.boot orphans resumed).claimants ≤ ↑(d.submissions (.boot orphans resumed)) := by
  let planned := resumed.foldl executePlanTask (d.beforeMilestones orphans)
  calc (d.boot orphans resumed).claimants
      ≤ ↑(d.staleAfter orphans) + planned.claimants := planned.claimants_executes_le _
    _ ≤ ↑(d.staleAfter orphans) + (↑((d.beforeMilestones orphans).dispatchedAll resumed) +
          (d.beforeMilestones orphans).claimants) := by
        gcongr
        exact claimants_executePlanTasks_le _ resumed
    _ = ↑(d.submissions (.boot orphans resumed)) := by
        rw [claimants_beforeMilestones, add_zero, add_comm, Multiset.coe_add]
        rfl

/-- The step lemma for the claims. -/
theorem step_claimants_le (d : Daemon) (event : Event) :
    (step d event).claimants ≤ (d.onset event).claimants + ↑(d.submissions event) := by
  cases event with
  | post task => exact (d.claimants_createTask_le task).trans (cons_claims _ _)
  | execute id => exact d.claimants_executeEvent_le id
  | planTask plan => exact (d.claimants_executePlanTask_le plan).trans (cons_claims _ _)
  | resume i => exact (d.claimants_resume_le i).trans (Multiset.le_add_right _ _)
  | contextBuilt i outcome =>
    exact (d.claimants_contextBuilt_le i outcome).trans (Multiset.le_add_right _ _)
  | sessionEnded i outcome =>
    by_cases hlive : ∃ id key session requiresApproval,
        d.executor.calls[i]? = some ⟨id, .live key session requiresApproval⟩
    · obtain ⟨id, key, session, requiresApproval, hcall⟩ := hlive
      exact (Multiset.le_cons_self _ id).trans (d.claimants_sessionEnded_le hcall outcome)
    · have hsame : d.sessionEnded i outcome = d := by
        unfold sessionEnded
        split
        · rename_i id key session requiresApproval hcall
          exact absurd ⟨id, key, session, requiresApproval, hcall⟩ hlive
        · rfl
      rw [step, hsame]
      exact Multiset.le_add_right _ _
  | questionEmitted i =>
    have hsame : (d.questionEmitted i).claimants = d.claimants := by
      unfold questionEmitted
      split
      · split <;> rfl
      · rfl
    exact hsame.le.trans (Multiset.le_add_right _ _)
  | answerQuestion id pending accepted => exact d.claimants_answerQuestion_le id pending accepted
  | cancel id => exact (d.claimants_cancelRoute_le id).trans (Multiset.le_add_right _ _)
  | approve id =>
    have hsame : (d.approveRoute id).claimants = d.claimants := by
      unfold approveRoute
      split <;> rfl
    exact hsame.le.trans (Multiset.le_add_right _ _)
  | reject id =>
    have hsame : (d.rejectRoute id).claimants = d.claimants := by
      unfold rejectRoute
      split
      · rfl
      · split
        · split <;> rfl
        · rfl
    exact hsame.le.trans (Multiset.le_add_right _ _)
  | rollbackDone i =>
    have hsame : (d.rollbackDone i).claimants = d.claimants := by
      unfold rollbackDone
      split <;> rfl
    exact hsame.le.trans (Multiset.le_add_right _ _)
  | timerFired id => exact d.claimants_timerFired_le id
  | retryFired i => exact (d.claimants_retryFired_le i).trans (Multiset.le_add_right _ _)
  | deleteProject projectId => exact Multiset.le_add_right _ _
  | edit ai overBudget => exact Multiset.le_add_right _ _
  | shutdown => exact d.claimants_shutdown_le.trans (Multiset.le_add_right _ _)
  | boot orphans resumed =>
    exact (d.claimants_boot_le orphans resumed).trans (Multiset.le_add_left _ _)

/-! ## Rows -/

/-- The columns of a row that keep the values of its INSERT. -/
def origin (row : TaskRow) : TaskRow :=
  { row with
    status := .queued
    keys := { row.keys with assignedKeyId := none }
    gitCommitBefore := none
    approvalStatus := none
    resumeAt := none }

/-- The statuses of a task whose run has failed, unless it was cancelled before. -/
def isOver (status : TaskStatus) : Bool := status == .failed || status == .cancelled

/-- The row of a task is over, or gone. -/
def OverOrGone (d : Daemon) (id : TaskId) : Prop :=
  ∀ status, d.statusOf id = some status → isOver status = true

/-- The second daemon has come out of the first by statements on the tasks table: rows keep their
origin, and a row that is over stays so unless its task is among `touched`. -/
structure Rewrites (touched : TaskId → Prop) (d d' : Daemon) : Prop where
  sequence : d.tasks.sequence ≤ d'.tasks.sequence
  kept : ∀ id, id ≤ d.tasks.sequence → ∀ row', d'.tasks.get id = some row' →
    ∃ row, d.tasks.get id = some row ∧ origin row' = origin row
  ended : ∀ id, id ≤ d.tasks.sequence → ¬touched id → d.OverOrGone id → d'.OverOrGone id

namespace Rewrites

variable {touched : TaskId → Prop} {d d' d'' : Daemon} {id : TaskId}

theorem of_tasks_eq (h : d'.tasks = d.tasks) : Rewrites touched d d' where
  sequence := h ▸ le_refl _
  kept id _ row' hrow := ⟨row', h ▸ hrow, rfl⟩
  ended id _ _ hover status hstatus := by
    apply hover status
    rw [statusOf, h] at hstatus
    exact hstatus

theorem refl (d : Daemon) : Rewrites touched d d := of_tasks_eq rfl

theorem trans (h : Rewrites touched d d') (h' : Rewrites touched d' d'') :
    Rewrites touched d d'' where
  sequence := h.sequence.trans h'.sequence
  kept id hid row'' hrow'' := by
    obtain ⟨row', hrow', horigin'⟩ := h'.kept id (hid.trans h.sequence) row'' hrow''
    obtain ⟨row, hrow, horigin⟩ := h.kept id hid row' hrow'
    exact ⟨row, hrow, horigin'.trans horigin⟩
  ended id hid htouched hover :=
    h'.ended id (hid.trans h.sequence) htouched (h.ended id hid htouched hover)

/-- A loop whose every round rewrites rows rewrites rows. -/
theorem foldl {α : Type} {round : Daemon → α → Daemon} (d : Daemon) (xs : List α)
    (hround : ∀ x ∈ xs, ∀ d, Rewrites touched d (round d x)) :
    Rewrites touched d (xs.foldl round d) := by
  induction xs generalizing d with
  | nil => exact refl d
  | cons x xs ih =>
    exact (hround x List.mem_cons_self d).trans
      (ih (round d x) fun y hy ↦ hround y (List.mem_cons_of_mem x hy))

/-- An UPDATE of a touched task, or one after which a row that was over is over. -/
theorem update (d : Daemon) (id : TaskId) (change : TaskRow → TaskRow)
    (horigin : ∀ row, origin (change row) = origin row)
    (hover : touched id ∨ ∀ row, d.tasks.get id = some row → isOver row.status = true →
      isOver (change row).status = true) :
    Rewrites touched d { d with tasks := d.tasks.update id change } where
  sequence := le_refl _
  kept other _ row' hrow' := by
    change (d.tasks.update id change).get other = some row' at hrow'
    rw [TaskTable.get_update] at hrow'
    split at hrow'
    · rename_i hother
      obtain ⟨row, hrow, hchange⟩ := Option.map_eq_some_iff.mp hrow'
      exact ⟨row, hother ▸ hrow, hchange ▸ horigin row⟩
    · exact ⟨row', hrow', rfl⟩
  ended other _ htouched hother status hstatus := by
    obtain ⟨row', hrow', hstatus'⟩ := (statusOf_eq_some_iff _ _ _).mp hstatus
    change (d.tasks.update id change).get other = some row' at hrow'
    rw [TaskTable.get_update] at hrow'
    split at hrow'
    · rename_i heq
      obtain ⟨row, hrow, hchange⟩ := Option.map_eq_some_iff.mp hrow'
      rcases hover with htouch | hkeep
      · exact absurd (heq ▸ htouch) htouched
      · rw [← hstatus', ← hchange]
        apply hkeep row hrow
        exact hother _ ((statusOf_eq_some_iff _ _ _).mpr ⟨row, heq ▸ hrow, rfl⟩)
    · exact hother status ((statusOf_eq_some_iff _ _ _).mpr ⟨row', hrow', hstatus'⟩)

theorem writeStatus (d : Daemon) (writer : Writer) (id : TaskId) (next : TaskStatus)
    (also : TaskRow → TaskRow)
    (horigin : ∀ row, origin { also row with status := next } = origin row)
    (hover : touched id ∨ ∀ before, d.statusOf id = some before → isOver before = true →
      isOver next = true) :
    Rewrites touched d (d.writeStatus writer id next also) := by
  have hupdate : Rewrites touched d
      { d with tasks := d.tasks.update id fun row ↦ { also row with status := next } } := by
    apply update d id _ horigin
    rcases hover with htouch | hkeep
    · exact Or.inl htouch
    · right
      intro row hrow hbefore
      exact hkeep row.status ((statusOf_eq_some_iff _ _ _).mpr ⟨row, hrow, rfl⟩) hbefore
  exact hupdate.trans (of_tasks_eq rfl)

/-- A new row leaves the rows below it. -/
theorem insert (d : Daemon) (row : TaskRow) :
    Rewrites touched d { d with tasks := d.tasks.insert row } where
  sequence := Nat.le_succ _
  kept id hid row' hrow' := by
    change (d.tasks.insert row).get id = some row' at hrow'
    have hold : id ≠ d.tasks.nextId := (Nat.lt_succ_of_le hid).ne
    rw [TaskTable.get_insert, if_neg hold] at hrow'
    exact ⟨row', hrow', rfl⟩
  ended id hid _ hover status hstatus := by
    have hold : id ≠ d.tasks.nextId := (Nat.lt_succ_of_le hid).ne
    rw [statusOf_insert, if_neg hold] at hstatus
    exact hover status hstatus

theorem createTask (d : Daemon) (task : NewTask) : Rewrites touched d (d.createTask task) :=
  (insert d task.toRow).trans (of_tasks_eq rfl)

theorem executePlanTask (d : Daemon) (plan : PlanExecution) :
    Rewrites touched d (d.executePlanTask plan) := by
  unfold Daemon.executePlanTask
  split
  · exact of_tasks_eq rfl
  · exact createTask d plan.task

theorem deleteProject (d : Daemon) (projectId : ProjectId) :
    Rewrites touched d { d with tasks := d.tasks.deleteProject projectId } := by
  have hrows (id : TaskId) (row : TaskRow)
      (hrow : (d.tasks.deleteProject projectId).get id = some row) :
      d.tasks.get id = some row := by
    rw [TaskTable.get_deleteProject, Option.filter_eq_some_iff] at hrow
    exact hrow.1
  refine ⟨le_refl _, fun id _ row hrow ↦ ⟨row, hrows id row hrow, rfl⟩, ?_⟩
  intro id _ _ hover status hstatus
  obtain ⟨row, hrow, hrowStatus⟩ := (statusOf_eq_some_iff _ _ _).mp hstatus
  exact hover status ((statusOf_eq_some_iff _ _ _).mpr ⟨row, hrows id row hrow, hrowStatus⟩)

/-- A row that is over may not become `next`. -/
theorem writeStatus_of_status (d : Daemon) (writer : Writer) (id : TaskId) {before : TaskStatus}
    (next : TaskStatus) (also : TaskRow → TaskRow)
    (horigin : ∀ row, origin { also row with status := next } = origin row)
    (hbefore : d.statusOf id = some before) (hlive : isOver before = false) :
    Rewrites touched d (d.writeStatus writer id next also) := by
  apply writeStatus d writer id next also horigin
  right
  intro status hstatus hover
  rw [hbefore] at hstatus
  cases hstatus
  rw [hlive] at hover
  cases hover

theorem startRun (d : Daemon) (id : TaskId) (key : AiKey) (htouched : touched id) :
    Rewrites touched d (d.startRun id key) := by
  have hwrite (d : Daemon) (writer : Writer) (next : TaskStatus) :
      Rewrites touched d (d.writeStatus writer id next) :=
    writeStatus d writer id next _ (fun _ ↦ rfl) (Or.inl htouched)
  unfold Daemon.startRun
  split
  · exact of_tasks_eq rfl
  · split
    · have hrefused := (hwrite d .start .running).trans (hwrite _ .overBudget .failed)
      exact hrefused.trans (of_tasks_eq rfl)
    · exact (hwrite d .start .running).trans (of_tasks_eq rfl)

theorem continueReserve (d : Daemon) (id : TaskId) (task : TaskKeys)
    (saturatedKeyIds : List KeyId) (selected : Except String AiKey) :
    Rewrites touched d (d.continueReserve id task saturatedKeyIds selected) := by
  cases selected with
  | error message => exact of_tasks_eq rfl
  | ok key =>
    simp only [Daemon.continueReserve]
    split <;> exact of_tasks_eq rfl

theorem continueExecute (d : Daemon) (id : TaskId) (reservation : Reservation)
    (htouched : touched id) : Rewrites touched d (d.continueExecute id reservation) := by
  cases reservation with
  | granted key => exact startRun d id key htouched
  | enqueue => exact of_tasks_eq rfl
  | failed message => exact writeStatus d _ id _ _ (fun _ ↦ rfl) (Or.inl htouched)

theorem startSession (d : Daemon) (id : TaskId) (key : AiKey) (requiresApproval : Option Bool)
    (context : RunContext) :
    Rewrites touched d (d.startSession id key requiresApproval context) := by
  refine (update d id _ ?_ ?_).trans (of_tasks_eq rfl)
  · intro row
    rfl
  · right
    intro row _ hover
    exact hover

theorem finalizeSuccess (d : Daemon) (id : TaskId) (requiresApproval : Bool)
    (htouched : touched id) : Rewrites touched d (d.finalizeSuccess id requiresApproval) := by
  unfold Daemon.finalizeSuccess
  split
  · exact refl d
  · exact writeStatus d _ id _ _ (fun _ ↦ rfl) (Or.inl htouched)

theorem finalizeError (d : Daemon) (id : TaskId) (status : TaskStatus) (htouched : touched id) :
    Rewrites touched d (d.finalizeError id status) := by
  unfold Daemon.finalizeError
  split
  · exact refl d
  · exact writeStatus d _ id _ _ (fun _ ↦ rfl) (Or.inl htouched)

theorem handleRunError (d : Daemon) (id : TaskId) (err : RunError) (htouched : touched id) :
    Rewrites touched d (d.handleRunError id err) := by
  cases hrow : d.retriedRow id err with
  | some row =>
    rw [(d.retriedRow_eq_some hrow).2.2]
    exact (finalizeError d id .failed htouched).trans
      ((insert _ (retryRow id row)).trans (of_tasks_eq rfl))
  | none =>
    rcases d.handleRunError_of_none hrow with hhandled | ⟨resumeAt, hhandled⟩ | ⟨status, hhandled⟩
    · rw [hhandled]
      exact refl d
    · rw [hhandled]
      have hpark : Rewrites touched d (d.writeStatus .parkRateLimited id .rateLimited fun row ↦
          { row with resumeAt := some resumeAt }) :=
        writeStatus d _ id _ _ (fun _ ↦ rfl) (Or.inl htouched)
      exact hpark.trans (of_tasks_eq rfl)
    · rw [hhandled]
      exact finalizeError d id status htouched

theorem settleSession (d : Daemon) (id : TaskId) (requiresApproval : Bool)
    (outcome : SessionOutcome) (htouched : touched id) :
    Rewrites touched d (d.settleSession id requiresApproval outcome) := by
  cases outcome with
  | success => exact finalizeSuccess d id requiresApproval htouched
  | error err => exact handleRunError d id err htouched

/-- A write behind `validateTaskTransition` that leads to a status other than `queued`. -/
theorem writeStatus_of_mayBecome (d : Daemon) (writer : Writer) (id : TaskId) {next : TaskStatus}
    (also : TaskRow → TaskRow)
    (horigin : ∀ row, origin { also row with status := next } = origin row)
    (hmay : d.mayBecome id next = true) (hnext : next ≠ .queued) :
    Rewrites touched d (d.writeStatus writer id next also) := by
  obtain ⟨before, hbefore, hvalid⟩ := (d.mayBecome_eq_true_iff id next).mp hmay
  apply writeStatus_of_status d writer id next also horigin hbefore
  cases before <;> first | rfl | (cases next <;> first | exact absurd rfl hnext | cases hvalid)

theorem requeue (d : Daemon) (writer : Writer) (id : TaskId) {before : TaskStatus}
    (also : TaskRow → TaskRow)
    (horigin : ∀ row, origin { also row with status := .queued } = origin row)
    (hbefore : d.statusOf id = some before) (hlive : isOver before = false) :
    Rewrites touched d ((d.writeStatus writer id .queued also).execute id) :=
  (writeStatus_of_status d writer id .queued also horigin hbefore hlive).trans (of_tasks_eq rfl)

theorem rejectWrite (d : Daemon) (id : TaskId) : Rewrites touched d (d.rejectWrite id) :=
  writeStatus d _ id _ _ (fun _ ↦ rfl) (Or.inr fun _ _ _ ↦ rfl)

/-- The stale reset takes running rows alone. -/
theorem resetStaleTasks (d : Daemon) : Rewrites touched d d.resetStaleTasks := by
  let running : List TaskId := d.tasks.idsWhere fun row ↦ row.status == .running
  have hreset : Rewrites (· ∈ running) d (running.foldl resetStale d) := by
    apply foldl
    intro id hid d
    exact writeStatus d _ id _ _ (fun _ ↦ rfl) (Or.inl hid)
  refine ⟨hreset.sequence, hreset.kept, ?_⟩
  intro id hid _ hover
  apply hreset.ended id hid _ hover
  intro hmem
  obtain ⟨row, hrow, hpass⟩ := (d.tasks.mem_idsWhere _ id).mp hmem
  have hrunning := hover row.status ((statusOf_eq_some_iff _ _ _).mpr ⟨row, hrow, rfl⟩)
  rw [beq_iff_eq.mp hpass] at hrunning
  cases hrunning

theorem boot (d : Daemon) (orphans : List TaskId) (resumed : List PlanExecution) :
    Rewrites touched d (d.boot orphans resumed) := by
  have hsweep (d : Daemon) (id : TaskId) : Rewrites touched d (d.sweepOrphan id) := by
    unfold sweepOrphan
    split
    · exact writeStatus d _ id _ _ (fun _ ↦ rfl) (Or.inr fun _ _ _ ↦ rfl)
    · exact refl d
  have hrecover (d : Daemon) (id : TaskId) : Rewrites touched d (d.recoverTimer id) := by
    unfold recoverTimer
    split <;> exact of_tasks_eq rfl
  have hrestart : Rewrites touched d d.restarted := of_tasks_eq rfl
  have hswept := hrestart.trans (foldl d.restarted orphans fun id _ d ↦ hsweep d id)
  have hreset := hswept.trans (resetStaleTasks _)
  have hrecovered : Rewrites touched d (d.beforeMilestones orphans) :=
    hreset.trans (foldl _ _ fun id _ d ↦ hrecover d id)
  have hplanned := hrecovered.trans (foldl _ resumed fun plan _ d ↦ executePlanTask d plan)
  exact hplanned.trans (foldl _ _ fun id _ d ↦ of_tasks_eq rfl)

end Rewrites

theorem ticketed_of_call {d : Daemon} {i : ℕ} {call : Call} {stage : Stage}
    (hcall : d.executor.calls[i]? = some call) (hstage : call.phase.stage = some stage) :
    d.ticketed call.taskId := by
  rw [ticketed_iff_mem_claimants, d.claimants_resumed_of_some hcall hstage]
  exact Multiset.mem_cons_self _ _

/-- The tasks an event may carry on: the claimed ones and those it submits. -/
def Reaches (d : Daemon) (event : Event) (id : TaskId) : Prop :=
  d.ticketed id ∨ id ∈ d.submissions event

/-- The step lemma for the rows: only the tasks that are claimed or submitted leave their end. -/
theorem step_rewrites (d : Daemon) (event : Event) :
    Rewrites (d.Reaches event) d (step d event) := by
  have hresumed (i : ℕ) : Rewrites (d.Reaches event) d (d.resumedAt i) := .of_tasks_eq rfl
  cases event with
  | post task => exact .createTask d task
  | execute id => exact .of_tasks_eq rfl
  | planTask plan => exact .executePlanTask d plan
  | resume i =>
    rw [step, resume]
    split
    · exact (hresumed i).trans (.continueReserve _ _ _ _ _)
    · rename_i id reservation hcall
      exact (hresumed i).trans
        (.continueExecute _ id reservation (Or.inl (ticketed_of_call hcall rfl)))
    · exact .of_tasks_eq rfl
    · exact .refl d
  | contextBuilt i outcome =>
    rw [step, contextBuilt]
    split
    · rename_i id key requiresApproval hcall
      cases outcome with
      | none =>
        have hfail : Rewrites (d.Reaches (.contextBuilt i none)) (d.resumedAt i)
            ((d.resumedAt i).writeStatus .contextFailed id .failed) :=
          .writeStatus _ _ id _ _ (fun _ ↦ rfl) (Or.inl (Or.inl (ticketed_of_call hcall rfl)))
        exact ((hresumed i).trans hfail).trans (.of_tasks_eq rfl)
      | some context => exact (hresumed i).trans (.startSession _ id key requiresApproval context)
    · exact .refl d
  | sessionEnded i outcome =>
    rw [step, sessionEnded]
    split
    · rename_i id key session requiresApproval hcall
      have hsettle : Rewrites (d.Reaches (.sessionEnded i outcome)) (d.resumedAt i)
          ((d.resumedAt i).settleSession id requiresApproval outcome) :=
        .settleSession _ id requiresApproval outcome (Or.inl (ticketed_of_call hcall rfl))
      exact ((hresumed i).trans hsettle).trans (.of_tasks_eq rfl)
    · exact .refl d
  | questionEmitted i =>
    rw [step, questionEmitted]
    split
    · split
      · rename_i hmay
        exact .writeStatus_of_mayBecome d _ _ _ (fun _ ↦ rfl) hmay (by decide)
      · exact .refl d
    · exact .refl d
  | answerQuestion id pending accepted =>
    rw [step, answerQuestion]
    split
    · split
      · split
        · rename_i haccepted
          exact .writeStatus_of_mayBecome d _ _ _ (fun _ ↦ rfl)
            (Bool.and_eq_true_iff.mp haccepted).2 (by decide)
        · exact .refl d
      · split
        · rename_i hwaiting
          exact .requeue d _ id _ (fun _ ↦ rfl) hwaiting rfl
        · exact .refl d
    · exact .refl d
  | cancel id =>
    rw [step, cancelRoute]
    split
    · have hcancel : Rewrites (d.Reaches (.cancel id)) d (d.cancelExecution id) := .of_tasks_eq rfl
      exact hcancel.trans (.writeStatus _ _ id _ _ (fun _ ↦ rfl) (Or.inr fun _ _ _ ↦ rfl))
    · exact .refl d
  | approve id =>
    rw [step, approveRoute]
    split
    · rename_i hmay
      exact .writeStatus_of_mayBecome d _ _ _ (fun _ ↦ rfl) hmay (by decide)
    · exact .refl d
  | reject id =>
    rw [step, rejectRoute]
    split
    · exact .refl d
    · split
      · split
        · exact .of_tasks_eq rfl
        · exact .rejectWrite d id
      · exact .refl d
  | rollbackDone i =>
    rw [step, rollbackDone]
    split
    · exact .refl d
    · rename_i id _
      have hdropped : Rewrites (d.Reaches (.rollbackDone i)) d
          { d with rejecting := d.rejecting.eraseIdx i } := .of_tasks_eq rfl
      exact hdropped.trans (.rejectWrite _ id)
  | timerFired id =>
    rw [step, timerFired]
    split
    · exact .refl d
    · rw [resumeFromRateLimit]
      have hfired : Rewrites (d.Reaches (.timerFired id)) d
          { d with timers := d.timers.delete id } := .of_tasks_eq rfl
      split
      · rename_i hparked
        exact hfired.trans (.requeue _ _ id _ (fun _ ↦ rfl) hparked rfl)
      · exact hfired
  | retryFired i =>
    rw [step, retryFired]
    split
    · exact .refl d
    · exact .of_tasks_eq rfl
  | deleteProject projectId => exact .deleteProject d projectId
  | edit ai overBudget => exact .of_tasks_eq rfl
  | shutdown => exact .of_tasks_eq rfl
  | boot orphans resumed => exact .boot d orphans resumed

/-! ## The step that issues a retry -/

/-- The session that has failed, and the rows the step leaves. -/
theorem retried_spec {d : Daemon} {event : Event} {id : TaskId} {row : TaskRow}
    (h : d.retried event = some (id, row)) :
    d.tasks.get id = some row ∧ canRetry row = true ∧ ∃ i err key session requiresApproval,
      event = .sessionEnded i (.error err) ∧
      d.executor.calls[i]? = some ⟨id, .live key session requiresApproval⟩ ∧
      (step d event).tasks =
        ((d.resumedAt i).finalizeError id .failed).tasks.insert (retryRow id row) := by
  unfold retried at h
  split at h
  · rename_i i err
    split at h
    · rename_i other key session requiresApproval hcall
      obtain ⟨found, hfound, hpair⟩ := Option.map_eq_some_iff.mp h
      cases hpair
      obtain ⟨hrow, hcan, hhandled⟩ := (d.resumedAt i).retriedRow_eq_some hfound
      refine ⟨hrow, hcan, i, err, key, session, requiresApproval, rfl, hcall, ?_⟩
      have hended : d.sessionEnded i (.error err) =
          ((d.resumedAt i).handleRunError id err).closeSession id key := by
        unfold sessionEnded
        rw [hcall]
        rfl
      rw [step, hended, hhandled]
      rfl
    · cases h
  · cases h

section Retried

variable {d : Daemon} {event : Event} {id : TaskId} {row : TaskRow}

theorem issued_of_retried (h : d.retried event = some (id, row)) : id ≤ d.tasks.sequence :=
  d.tasks.issued id row (retried_spec h).1

/-- The retry is the row that is new. -/
theorem get_nextId_of_retried (h : d.retried event = some (id, row)) :
    (step d event).tasks.get d.tasks.nextId = some (retryRow id row) ∧
      (step d event).tasks.sequence = d.tasks.nextId := by
  obtain ⟨_, _, i, _, _, _, _, _, _, htasks⟩ := retried_spec h
  have hnext : ((d.resumedAt i).finalizeError id .failed).tasks.nextId = d.tasks.nextId :=
    nextId_finalizeError _ _ _
  rw [htasks]
  refine ⟨?_, hnext⟩
  rw [TaskTable.get_insert, if_pos hnext.symm]

/-- The failed task is over. -/
theorem over_of_retried (h : d.retried event = some (id, row)) :
    (step d event).OverOrGone id := by
  obtain ⟨hrow, _, i, _, _, _, _, _, _, htasks⟩ := retried_spec h
  intro status hstatus
  have hnew : id ≠ ((d.resumedAt i).finalizeError id .failed).tasks.nextId := by
    rw [nextId_finalizeError]
    exact (Nat.lt_succ_of_le (issued_of_retried h)).ne
  rw [statusOf, htasks, TaskTable.get_insert, if_neg hnew, get_finalizeError, if_pos rfl] at hstatus
  obtain ⟨after, hafter, hstatus⟩ := Option.map_eq_some_iff.mp hstatus
  obtain ⟨before, _, hbefore⟩ := Option.map_eq_some_iff.mp hafter
  rw [← hstatus, ← hbefore]
  change isOver (if _ then TaskStatus.cancelled else .failed) = true
  split <;> rfl

theorem ticketed_of_retried (h : d.retried event = some (id, row)) : d.ticketed id := by
  obtain ⟨_, _, i, _, _, _, _, _, hcall, _⟩ := retried_spec h
  exact ticketed_of_call hcall rfl

/-- With the failure the claim of the task is gone. -/
theorem claimants_of_retried (h : d.retried event = some (id, row)) :
    id ::ₘ (step d event).claimants ≤ d.claimants + ↑(d.submissions event) := by
  obtain ⟨_, _, i, err, _, _, _, hevent, hcall, _⟩ := retried_spec h
  rw [hevent]
  exact d.claimants_sessionEnded_le hcall _

end Retried

end Daemon

end Flockctl.TaskExecutor
