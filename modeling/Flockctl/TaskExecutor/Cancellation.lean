import Flockctl.TaskExecutor.Queue

/-!
# What a cancelled task does afterwards

The cancel route takes the task out of the in-memory queue, tears its wake-up timer down, aborts
its session and writes `cancelled`. A session that ends after that finds its final write guarded.
Three later writers have no guard: a call that is still between `execute` and its session, an
automatic retry whose timeout is pending, and the parking of a session that ends with a provider
limit. Without them a cancelled task stays cancelled in every later state of every run, and
nothing is started or armed for it.
-/

namespace Flockctl.TaskExecutor

open Collections Ai Tasks Transition

/-- The call has its session or is past it. -/
def Phase.dormant : Phase → Bool
  | .live _ _ _ => true
  | .finishing _ => true
  | _ => false

namespace Executor

/-- No call of a task is on its way to a session, and the task does not wait for a key. -/
structure Idle (id : TaskId) (e : Executor) : Prop where
  dormant : ∀ call ∈ e.calls, call.taskId = id → call.phase.dormant = true
  notQueued : id ∉ e.queue

namespace Idle

variable {id : TaskId} {e : Executor}

theorem resumed (h : e.Idle id) (i : ℕ) : (e.resumed i).Idle id where
  dormant call hcall := h.dormant call (List.mem_of_mem_eraseIdx hcall)
  notQueued := h.notQueued

theorem append (h : e.Idle id) {calls : List Call}
    (hcalls : ∀ call ∈ calls, call.taskId = id → call.phase.dormant = true) :
    Idle id { e with calls := e.calls ++ calls } where
  dormant call hcall := by
    rcases List.mem_append.mp hcall with hcall | hcall
    · exact h.dormant call hcall
    · exact hcalls call hcall
  notQueued := h.notQueued

theorem push (h : e.Idle id) {call : Call}
    (hcall : call.taskId = id → call.phase.dormant = true) : (e.push call).Idle id := by
  apply h.append
  intro other hother
  rw [List.mem_singleton.mp hother]
  exact hcall

theorem enqueue (h : e.Idle id) {other : TaskId} (hother : other ≠ id) :
    (e.enqueue other).Idle id where
  dormant := h.dormant
  notQueued := by
    intro hmem
    unfold Executor.enqueue at hmem
    simp only at hmem
    split at hmem
    · exact h.notQueued hmem
    · rcases List.mem_append.mp hmem with hmem | hmem
      · exact h.notQueued hmem
      · exact hother (List.mem_singleton.mp hmem).symm

/-- A call on its way to a session belongs to another task. -/
theorem ne_of_call (h : e.Idle id) {i : ℕ} {call : Call} (hcall : e.calls[i]? = some call)
    (hphase : call.phase.dormant = false) : call.taskId ≠ id := by
  intro heq
  have hdormant := h.dormant call (List.mem_of_getElem? hcall) heq
  rw [hphase] at hdormant
  cases hdormant

end Idle

end Executor

namespace Daemon

/-- The row is cancelled or gone, and nothing in the process is going to work on the task. -/
structure Quiet (id : TaskId) (d : Daemon) : Prop where
  issued : id ≤ d.tasks.sequence
  cancelled : ∀ status, d.statusOf id = some status → status = .cancelled
  idle : d.executor.Idle id
  noRetry : id ∉ d.retries
  noTimer : d.timers.get id = none

/-- The one effect a cancelled task may still see: a reject request that was waiting for its
rollback writes `cancelled` again. -/
def Silent (id : TaskId) (effect : Effect) : Prop :=
  effect.taskId = id → effect = .status .rejectRoute id .cancelled .cancelled

/-- A step leaves a quiet task alone. -/
structure Leaves (id : TaskId) (d d' : Daemon) : Prop where
  quiet : d'.Quiet id
  silent : Emits (Silent id) d d'

theorem silent_of_ne {id : TaskId} {effect : Effect} (h : effect.taskId ≠ id) :
    Silent id effect := fun heq ↦ absurd heq h

namespace Quiet

variable {id : TaskId} {d : Daemon}

theorem ne_nextId (h : d.Quiet id) : d.tasks.nextId ≠ id := by
  intro heq
  have hissued : id ≤ d.tasks.sequence := h.issued
  rw [← heq] at hissued
  exact absurd hissued (Nat.not_succ_le_self _)

theorem statusOf_ne (h : d.Quiet id) {status : TaskStatus} (hstatus : status ≠ .cancelled) :
    d.statusOf id ≠ some status := fun heq ↦ hstatus (h.cancelled status heq)

/-- Nothing but `queued` may follow, so no validated write touches the task. -/
theorem ne_of_mayBecome (h : d.Quiet id) {next : TaskStatus} (hnext : next ≠ .queued)
    {other : TaskId} (hother : d.mayBecome other next = true) : other ≠ id := by
  intro heq
  obtain ⟨status, hstatus, hvalid⟩ := (d.mayBecome_eq_true_iff other next).mp hother
  rw [heq] at hstatus
  rw [h.cancelled status hstatus] at hvalid
  exact hnext ((validate_from_cancelled next).mp hvalid)

theorem ne_of_statusOf (h : d.Quiet id) {other : TaskId} {status : TaskStatus}
    (hother : d.statusOf other = some status) (hstatus : status ≠ .cancelled) : other ≠ id := by
  intro heq
  rw [heq] at hother
  exact h.statusOf_ne hstatus hother

theorem ne_of_live (h : d.Quiet id) {other : TaskId}
    (hother : (d.statusOf other).any isLiveExecution = true) : other ≠ id := by
  obtain ⟨status, hstatus, hlive⟩ := (Option.any_eq_true _ _).mp hother
  apply h.ne_of_statusOf hstatus
  intro heq
  rw [heq] at hlive
  cases hlive

theorem leaves_refl (h : d.Quiet id) : Leaves id d d := ⟨h, Emits.refl d⟩

end Quiet

namespace Leaves

variable {id : TaskId} {d d' d'' : Daemon}

theorem trans (h : Leaves id d d') (h' : Leaves id d' d'') : Leaves id d d'' :=
  ⟨h'.quiet, h.silent.trans h'.silent⟩

theorem of_executor (h : d.Quiet id) {e : Executor} (he : e.Idle id) :
    Leaves id d { d with executor := e } where
  quiet := { h with idle := he }
  silent := Emits.of_trace_eq rfl

theorem writeStatus (h : d.Quiet id) (writer : Writer) {other : TaskId} (hother : other ≠ id)
    (next : TaskStatus) (also : TaskRow → TaskRow) :
    Leaves id d (d.writeStatus writer other next also) where
  quiet := by
    refine ⟨h.issued, ?_, h.idle, h.noRetry, h.noTimer⟩
    intro status hstatus
    rw [statusOf_writeStatus, if_neg hother.symm] at hstatus
    exact h.cancelled status hstatus
  silent := Emits.writeStatus d writer other next also fun _ _ ↦ silent_of_ne hother

/-- A write to a row that is gone. -/
theorem writeStatus_of_none (h : d.Quiet id) (hnone : d.statusOf id = none) (writer : Writer)
    (next : TaskStatus) (also : TaskRow → TaskRow) :
    Leaves id d (d.writeStatus writer id next also) where
  quiet := by
    refine ⟨h.issued, ?_, h.idle, h.noRetry, h.noTimer⟩
    intro status hstatus
    rw [statusOf_writeStatus, if_pos rfl, hnone] at hstatus
    cases hstatus
  silent := by
    apply Emits.writeStatus
    intro before hbefore
    rw [hnone] at hbefore
    cases hbefore

theorem rejectWrite (h : d.Quiet id) (other : TaskId) : Leaves id d (d.rejectWrite other) := by
  by_cases hother : other = id
  · subst hother
    refine ⟨⟨h.issued, ?_, h.idle, h.noRetry, h.noTimer⟩, ?_⟩
    · intro status hstatus
      rw [Daemon.rejectWrite, statusOf_writeStatus, if_pos rfl] at hstatus
      obtain ⟨_, _, heq⟩ := Option.map_eq_some_iff.mp hstatus
      exact heq.symm
    · apply Emits.writeStatus
      intro before hbefore _
      rw [h.cancelled before hbefore]
  · exact writeStatus h _ hother _ _

theorem schedule (h : d.Quiet id) {other : TaskId} (hother : other ≠ id) (resumeAt : ℕ) :
    Leaves id d (d.schedule other resumeAt) where
  quiet := by
    refine ⟨h.issued, h.cancelled, h.idle, h.noRetry, ?_⟩
    exact (JsMap.get_set_of_ne _ _ hother.symm).trans h.noTimer
  silent := Emits.single rfl (silent_of_ne hother)

theorem insert (h : d.Quiet id) (row : TaskRow) :
    Leaves id d { d with tasks := d.tasks.insert row } where
  quiet := by
    refine ⟨?_, ?_, h.idle, h.noRetry, h.noTimer⟩
    · exact Nat.le_succ_of_le h.issued
    · intro status hstatus
      rw [statusOf_insert, if_neg h.ne_nextId.symm] at hstatus
      exact h.cancelled status hstatus
  silent := Emits.of_trace_eq rfl

theorem push (h : d.Quiet id) {call : Call}
    (hcall : call.taskId = id → call.phase.dormant = true) : Leaves id d (d.push call) :=
  of_executor h (h.idle.push hcall)

theorem execute (h : d.Quiet id) {other : TaskId} (hother : other ≠ id) :
    Leaves id d (d.execute other) := by
  apply of_executor h
  apply h.idle.append
  intro call hcall heq
  unfold submit at hcall
  split at hcall
  · cases hcall
  · rw [List.mem_singleton.mp hcall] at heq
    exact absurd heq hother

/-- A loop leaves the task alone when each of its rounds does. -/
theorem foldl {α : Type} {round : Daemon → α → Daemon} (xs : List α)
    (hround : ∀ x ∈ xs, ∀ d : Daemon, d.Quiet id → Leaves id d (round d x)) (h : d.Quiet id) :
    Leaves id d (xs.foldl round d) := by
  induction xs generalizing d with
  | nil => exact h.leaves_refl
  | cons x xs ih =>
    have hhead := hround x List.mem_cons_self d h
    have htail := ih (fun y hy ↦ hround y (List.mem_cons_of_mem x hy)) hhead.quiet
    exact hhead.trans htail

theorem continueReserve (h : d.Quiet id) {other : TaskId} (hother : other ≠ id)
    (task : TaskKeys) (saturatedKeyIds : List KeyId) (selected : Except String AiKey) :
    Leaves id d (d.continueReserve other task saturatedKeyIds selected) := by
  cases selected with
  | error message => exact push h fun heq ↦ absurd heq hother
  | ok key =>
    simp only [Daemon.continueReserve]
    split
    · exact push h fun heq ↦ absurd heq hother
    · apply of_executor h
      have hidle : Executor.Idle id { d.executor with
          pool := d.executor.pool.reserve other key.id } := ⟨h.idle.dormant, h.idle.notQueued⟩
      apply hidle.append
      intro call hcall heq
      rw [List.mem_singleton.mp hcall] at heq
      exact absurd heq hother

theorem startRun (h : d.Quiet id) {other : TaskId} (hother : other ≠ id) (key : AiKey) :
    Leaves id d (d.startRun other key) := by
  have hpush (d : Daemon) (h : d.Quiet id) (phase : Phase) : Leaves id d (d.push ⟨other, phase⟩) :=
    push h fun heq ↦ absurd heq hother
  have hstart := writeStatus h .start hother .running fun row ↦ row
  unfold Daemon.startRun
  split
  · exact hpush d h _
  · split
    · have hfail := writeStatus hstart.quiet .overBudget hother .failed fun row ↦ row
      exact hstart.trans (hfail.trans (hpush _ hfail.quiet _))
    · exact hstart.trans (hpush _ hstart.quiet _)

theorem continueExecute (h : d.Quiet id) {other : TaskId} (hother : other ≠ id)
    (reservation : Reservation) : Leaves id d (d.continueExecute other reservation) := by
  cases reservation with
  | granted key => exact startRun h hother key
  | enqueue => exact of_executor h (h.idle.enqueue hother)
  | failed message => exact writeStatus h _ hother _ _

/-- Draining the queue executes other tasks only. -/
theorem finishRun (h : d.Quiet id) (other : TaskId) : Leaves id d (d.finishRun other) := by
  apply of_executor h
  refine ⟨?_, List.not_mem_nil⟩
  intro call hcall heq
  rcases List.mem_append.mp hcall with hcall | hcall
  · exact h.idle.dormant call hcall heq
  · obtain ⟨waiting, hwaiting, hsubmit⟩ := List.mem_flatMap.mp hcall
    unfold submit at hsubmit
    split at hsubmit
    · cases hsubmit
    · rw [List.mem_singleton.mp hsubmit] at heq
      change waiting = id at heq
      exact absurd (heq ▸ hwaiting) h.idle.notQueued

theorem startSession (h : d.Quiet id) {other : TaskId} (hother : other ≠ id) (key : AiKey)
    (requiresApproval : Option Bool) (context : RunContext) :
    Leaves id d (d.startSession other key requiresApproval context) where
  quiet := by
    refine ⟨h.issued, ?_, ?_, h.noRetry, h.noTimer⟩
    · intro status hstatus
      apply h.cancelled status
      rw [← hstatus]
      unfold statusOf
      refine congrArg _ (Eq.symm ?_)
      exact (TaskTable.get_update _ _ _ _).trans (if_neg hother.symm)
    · have hidle : Executor.Idle id { d.executor with
          sessions := d.executor.sessions.set other d.nextSession } :=
        ⟨h.idle.dormant, h.idle.notQueued⟩
      apply hidle.append
      intro call hcall heq
      rw [List.mem_singleton.mp hcall] at heq
      exact absurd heq hother
  silent := Emits.single rfl (silent_of_ne hother)

theorem resume (h : d.Quiet id) (i : ℕ) : Leaves id d (d.resume i) := by
  have hresumed : Leaves id d { d with executor := d.executor.resumed i } :=
    of_executor h (h.idle.resumed i)
  unfold Daemon.resume
  split
  · rename_i other task saturatedKeyIds selected hcall
    have hother := h.idle.ne_of_call hcall rfl
    exact hresumed.trans (continueReserve hresumed.quiet hother _ _ _)
  · rename_i other reservation hcall
    have hother := h.idle.ne_of_call hcall rfl
    exact hresumed.trans (continueExecute hresumed.quiet hother _)
  · exact hresumed.trans (finishRun hresumed.quiet _)
  · exact h.leaves_refl

theorem contextBuilt (h : d.Quiet id) (i : ℕ) (outcome : Option RunContext) :
    Leaves id d (d.contextBuilt i outcome) := by
  have hresumed : Leaves id d { d with executor := d.executor.resumed i } :=
    of_executor h (h.idle.resumed i)
  unfold Daemon.contextBuilt
  split
  · rename_i other key requiresApproval hcall
    have hother := h.idle.ne_of_call hcall rfl
    cases outcome with
    | none =>
      have hfail := writeStatus hresumed.quiet .contextFailed hother .failed fun row ↦ row
      exact hresumed.trans (hfail.trans (push hfail.quiet fun heq ↦ absurd heq hother))
    | some context => exact hresumed.trans (startSession hresumed.quiet hother _ _ _)
  · exact h.leaves_refl

theorem finalizeSuccess (h : d.Quiet id) (other : TaskId) (requiresApproval : Bool) :
    Leaves id d (d.finalizeSuccess other requiresApproval) := by
  unfold Daemon.finalizeSuccess
  split
  · exact h.leaves_refl
  · rename_i hstatus
    by_cases hother : other = id
    · subst hother
      apply writeStatus_of_none h
      cases hnone : d.statusOf other with
      | none => rfl
      | some status => exact absurd (hnone.trans (by rw [h.cancelled status hnone])) hstatus
    · exact writeStatus h _ hother _ _

theorem finalizeError (h : d.Quiet id) (other : TaskId) (status : TaskStatus) :
    Leaves id d (d.finalizeError other status) := by
  unfold Daemon.finalizeError
  split
  · exact h.leaves_refl
  · rename_i hstatus
    by_cases hother : other = id
    · subst hother
      apply writeStatus_of_none h
      cases hnone : d.statusOf other with
      | none => rfl
      | some current => exact absurd (hnone.trans (by rw [h.cancelled current hnone])) hstatus
    · exact writeStatus h _ hother _ _

/-- The retry of any task, this one included, is a new task. -/
theorem scheduleRetry (h : d.Quiet id) (other : TaskId) :
    Leaves id d (d.scheduleRetry other) := by
  unfold Daemon.scheduleRetry
  split
  · exact h.leaves_refl
  · rename_i row _
    split
    · have hinsert := insert h (retryRow other row)
      refine hinsert.trans ⟨?_, Emits.of_trace_eq rfl⟩
      refine { hinsert.quiet with noRetry := ?_ }
      intro hmem
      rcases List.mem_append.mp hmem with hmem | hmem
      · exact h.noRetry hmem
      · exact h.ne_nextId (List.mem_singleton.mp hmem).symm
    · exact h.leaves_refl

end Leaves

/-- A session of the task ends with an error that parks it. -/
def parks (d : Daemon) (err : RunError) : Bool :=
  !(err.shutdown || (d.shuttingDown && err.name == .abortError)) && err.limit.isSome

namespace Leaves

variable {id : TaskId} {d d' d'' : Daemon}

section

variable (h : d.Quiet id)

include h

theorem handleRunError {other : TaskId} {err : RunError}
    (hparks : other = id → d.parks err = false) : Leaves id d (d.handleRunError other err) := by
  unfold Daemon.handleRunError
  split
  · exact h.leaves_refl
  · rename_i hrunning
    split
    · rename_i resumeAt hlimit
      have hother : other ≠ id := by
        intro heq
        have hfalse := hparks heq
        rw [parks, hlimit] at hfalse
        simp [hrunning] at hfalse
      have hpark := writeStatus h .parkRateLimited hother .rateLimited
        fun row ↦ { row with resumeAt := some resumeAt }
      exact hpark.trans (schedule hpark.quiet hother resumeAt)
    · have hfinal := finalizeError h other
      split
      · exact (hfinal _).trans (scheduleRetry (hfinal _).quiet other)
      · exact hfinal _

theorem closeSession (other : TaskId) (key : AiKey) : Leaves id d (d.closeSession other key) := by
  apply of_executor h
  have hidle : Executor.Idle id { d.executor with sessions := d.executor.sessions.delete other } :=
    ⟨h.idle.dormant, h.idle.notQueued⟩
  apply hidle.append
  intro call hcall _
  rw [List.mem_singleton.mp hcall]
  rfl

theorem sessionEnded {i : ℕ} {outcome : SessionOutcome}
    (hparks : ∀ key session requiresApproval err,
      d.executor.calls[i]? = some ⟨id, .live key session requiresApproval⟩ →
        outcome = .error err → d.parks err = false) :
    Leaves id d (d.sessionEnded i outcome) := by
  have hresumed : Leaves id d { d with executor := d.executor.resumed i } :=
    of_executor h (h.idle.resumed i)
  unfold Daemon.sessionEnded
  split
  · rename_i other key session requiresApproval hcall
    have hsettle : Leaves id { d with executor := d.executor.resumed i }
        (settleSession { d with executor := d.executor.resumed i } other requiresApproval
          outcome) := by
      cases outcome with
      | success => exact finalizeSuccess hresumed.quiet other requiresApproval
      | error err =>
        apply handleRunError hresumed.quiet
        intro heq
        subst heq
        exact hparks key session requiresApproval err hcall rfl
    exact hresumed.trans (hsettle.trans (closeSession hsettle.quiet other key))
  · exact h.leaves_refl

theorem questionEmitted (i : ℕ) : Leaves id d (d.questionEmitted i) := by
  unfold Daemon.questionEmitted
  split
  · split
    · rename_i hmay
      exact writeStatus h _ (h.ne_of_mayBecome (by decide) hmay) _ _
    · exact h.leaves_refl
  · exact h.leaves_refl

theorem answerQuestion (other : TaskId) (pending accepted : Bool) :
    Leaves id d (d.answerQuestion other pending accepted) := by
  unfold Daemon.answerQuestion
  split
  · split
    · split
      · rename_i hmay
        have hother := h.ne_of_mayBecome (by decide) (Bool.and_eq_true_iff.mp hmay).2
        exact writeStatus h _ hother _ _
      · exact h.leaves_refl
    · split
      · rename_i hstatus
        have hother := h.ne_of_statusOf hstatus (by decide)
        have hqueued := writeStatus h .resolveQuestionCold hother .queued fun row ↦ row
        exact hqueued.trans (execute hqueued.quiet hother)
      · exact h.leaves_refl
  · exact h.leaves_refl

theorem createTask (task : NewTask) : Leaves id d (d.createTask task) := by
  have hinsert := insert h task.toRow
  exact hinsert.trans (execute hinsert.quiet h.ne_nextId)

theorem cancelRoute (other : TaskId) : Leaves id d (d.cancelRoute other) := by
  unfold Daemon.cancelRoute
  split
  · rename_i hmay
    have hother := h.ne_of_mayBecome (by decide) hmay
    have hcancel : Leaves id d (d.cancelExecution other) := by
      refine ⟨⟨h.issued, h.cancelled, ⟨h.idle.dormant, ?_⟩, h.noRetry, ?_⟩, Emits.of_trace_eq rfl⟩
      · exact fun hmem ↦ h.idle.notQueued (List.mem_of_mem_erase hmem)
      · exact (JsMap.get_delete_of_ne _ hother.symm).trans h.noTimer
    exact hcancel.trans (writeStatus hcancel.quiet _ hother _ _)
  · exact h.leaves_refl

theorem approveRoute (other : TaskId) : Leaves id d (d.approveRoute other) := by
  unfold Daemon.approveRoute
  split
  · rename_i hmay
    exact writeStatus h _ (h.ne_of_mayBecome (by decide) hmay) _ _
  · exact h.leaves_refl

theorem of_rejecting (rejecting : List TaskId) : Leaves id d { d with rejecting := rejecting } where
  quiet := ⟨h.issued, h.cancelled, h.idle, h.noRetry, h.noTimer⟩
  silent := Emits.of_trace_eq rfl

theorem rejectRoute (other : TaskId) : Leaves id d (d.rejectRoute other) := by
  unfold Daemon.rejectRoute
  split
  · exact h.leaves_refl
  · split
    · split
      · exact of_rejecting h _
      · exact rejectWrite h other
    · exact h.leaves_refl

theorem rollbackDone (i : ℕ) : Leaves id d (d.rollbackDone i) := by
  unfold Daemon.rollbackDone
  split
  · exact h.leaves_refl
  · have hrejecting := of_rejecting h (d.rejecting.eraseIdx i)
    exact hrejecting.trans (rejectWrite hrejecting.quiet _)

theorem resumeFromRateLimit (other : TaskId) : Leaves id d (d.resumeFromRateLimit other) := by
  unfold Daemon.resumeFromRateLimit
  split
  · rename_i hstatus
    have hother := h.ne_of_statusOf hstatus (by decide)
    have hqueued := writeStatus h .resumeFromRateLimit hother .queued
      fun row ↦ { row with resumeAt := none }
    exact hqueued.trans (execute hqueued.quiet hother)
  · exact h.leaves_refl

theorem timerFired (other : TaskId) : Leaves id d (d.timerFired other) := by
  unfold Daemon.timerFired
  split
  · exact h.leaves_refl
  · have hfired : Leaves id d { d with timers := d.timers.delete other } := by
      refine ⟨⟨h.issued, h.cancelled, h.idle, h.noRetry, ?_⟩, Emits.of_trace_eq rfl⟩
      change (d.timers.delete other).get id = none
      rw [JsMap.get_delete, h.noTimer, ite_self]
    exact hfired.trans (resumeFromRateLimit hfired.quiet other)

theorem retryFired (i : ℕ) : Leaves id d (d.retryFired i) := by
  unfold Daemon.retryFired
  split
  · exact h.leaves_refl
  · rename_i other hretry
    have hother : other ≠ id := by
      intro heq
      exact h.noRetry (heq ▸ List.mem_of_getElem? hretry)
    have hfired : Leaves id d { d with retries := d.retries.eraseIdx i } :=
      ⟨⟨h.issued, h.cancelled, h.idle, fun hmem ↦ h.noRetry (List.mem_of_mem_eraseIdx hmem),
        h.noTimer⟩, Emits.of_trace_eq rfl⟩
    exact hfired.trans (execute hfired.quiet hother)

theorem executePlanTask (plan : PlanExecution) : Leaves id d (d.executePlanTask plan) := by
  unfold Daemon.executePlanTask
  split
  · rename_i other hreuse
    exact execute h (h.ne_of_live (Option.filter_eq_some_iff.mp hreuse).2)
  · exact createTask h plan.task

theorem restarted : Leaves id d d.restarted where
  quiet := by
    refine ⟨h.issued, h.cancelled, ⟨?_, List.not_mem_nil⟩, List.not_mem_nil, rfl⟩
    intro call hcall
    cases hcall
  silent := Emits.of_trace_eq rfl

/-- The rows a boot query finds by another status than `cancelled` belong to other tasks. -/
theorem ne_of_mem_idsWhere {test : TaskRow → Bool}
    (htest : ∀ row : TaskRow, row.status = .cancelled → test row = false) {other : TaskId}
    (hother : other ∈ d.tasks.idsWhere test) : other ≠ id := by
  intro heq
  obtain ⟨row, hrow, hpass⟩ := (d.tasks.mem_idsWhere test other).mp hother
  rw [heq] at hrow
  rw [htest row (h.cancelled row.status ((d.statusOf_eq_some_iff id _).mpr ⟨row, hrow, rfl⟩))]
    at hpass
  cases hpass

theorem boot (orphans : List TaskId) (resumed : List PlanExecution) :
    Leaves id d (d.boot orphans resumed) := by
  have hrestart := restarted h
  have hsweep : Leaves id d.restarted (orphans.foldl sweepOrphan d.restarted) := by
    apply foldl _ _ hrestart.quiet
    intro other _ d h
    unfold sweepOrphan
    split
    · rename_i hlive
      exact writeStatus h _ (h.ne_of_live hlive) _ _
    · exact h.leaves_refl
  have hreset (d : Daemon) (h : d.Quiet id) : Leaves id d d.resetStaleTasks := by
    apply foldl _ _ h
    intro other hother d' h'
    refine writeStatus h' _ (ne_of_mem_idsWhere h ?_ hother) _ _
    intro row hrow
    rw [hrow]
    rfl
  have hrecover (d : Daemon) (h : d.Quiet id) : Leaves id d d.recoverFromDatabase := by
    apply foldl _ _ h
    intro other hother d' h'
    unfold recoverTimer
    split
    · exact h'.leaves_refl
    · refine schedule h' (ne_of_mem_idsWhere h ?_ hother) _
      intro row hrow
      rw [hrow]
      rfl
  have hplan (d : Daemon) (h : d.Quiet id) :
      Leaves id d (resumed.foldl Daemon.executePlanTask d) :=
    foldl _ (fun plan _ d' h' ↦ executePlanTask h' plan) h
  have hbooted := hrestart.trans hsweep
  have hresetted := hbooted.trans (hreset _ hbooted.quiet)
  have hrecovered := hresetted.trans (hrecover _ hresetted.quiet)
  have hplanned := hrecovered.trans (hplan _ hrecovered.quiet)
  refine hplanned.trans (foldl _ ?_ hplanned.quiet)
  intro other hother d' h'
  refine execute h' (ne_of_mem_idsWhere hbooted.quiet ?_ hother)
  intro row hrow
  rw [hrow]
  rfl

end

end Leaves

end Daemon

/-! ## Every later event -/

/-- An event that neither executes the task again nor ends a session of it with an error that
parks it. -/
def lets (id : TaskId) (d : Daemon) : Event → Bool
  | .execute other => other != id
  | .sessionEnded i (.error err) =>
    match d.executor.calls[i]? with
    | some ⟨other, .live _ _ _⟩ => other != id || !d.parks err
    | _ => true
  | _ => true

/-- The step lemma: a quiet task is left alone by every event that lets it rest. -/
theorem step_leaves {id : TaskId} {d : Daemon} (h : d.Quiet id) {event : Event}
    (hlets : lets id d event = true) : Daemon.Leaves id d (step d event) := by
  cases event with
  | post task => exact Daemon.Leaves.createTask h task
  | execute other => exact Daemon.Leaves.execute h (by simpa [lets] using hlets)
  | planTask plan => exact Daemon.Leaves.executePlanTask h plan
  | resume i => exact Daemon.Leaves.resume h i
  | contextBuilt i outcome => exact Daemon.Leaves.contextBuilt h i outcome
  | sessionEnded i outcome =>
    apply Daemon.Leaves.sessionEnded h
    intro key session requiresApproval err hcall herr
    subst herr
    simpa [lets, hcall] using hlets
  | questionEmitted i => exact Daemon.Leaves.questionEmitted h i
  | answerQuestion other pending accepted =>
    exact Daemon.Leaves.answerQuestion h other pending accepted
  | cancel other => exact Daemon.Leaves.cancelRoute h other
  | approve other => exact Daemon.Leaves.approveRoute h other
  | reject other => exact Daemon.Leaves.rejectRoute h other
  | rollbackDone i => exact Daemon.Leaves.rollbackDone h i
  | timerFired other => exact Daemon.Leaves.timerFired h other
  | retryFired i => exact Daemon.Leaves.retryFired h i
  | deleteProject projectId =>
    refine ⟨⟨h.issued, ?_, h.idle, h.noRetry, h.noTimer⟩, Daemon.Emits.of_trace_eq rfl⟩
    intro status hstatus
    obtain ⟨row, hrow, heq⟩ := (Daemon.statusOf_eq_some_iff _ _ _).mp hstatus
    change (d.tasks.deleteProject projectId).get id = some row at hrow
    rw [TaskTable.get_deleteProject, Option.filter_eq_some_iff] at hrow
    exact h.cancelled status ((d.statusOf_eq_some_iff id status).mpr ⟨row, hrow.1, heq⟩)
  | edit ai overBudget =>
    exact ⟨⟨h.issued, h.cancelled, h.idle, h.noRetry, h.noTimer⟩, Daemon.Emits.of_trace_eq rfl⟩
  | shutdown =>
    exact ⟨⟨h.issued, h.cancelled, ⟨h.idle.dormant, List.not_mem_nil⟩, h.noRetry, rfl⟩,
      Daemon.Emits.of_trace_eq rfl⟩
  | boot orphans resumed => exact Daemon.Leaves.boot h orphans resumed

/-- The run lemma. -/
theorem run_leaves {id : TaskId} {d : Daemon} (h : d.Quiet id) (events : List Event)
    (hevents : Disciplined step (fun d event ↦ lets id d event = true) d events) :
    Daemon.Leaves id d (run step d events) := by
  induction events generalizing d with
  | nil => exact h.leaves_refl
  | cons event events ih =>
    have hhead := step_leaves h hevents.1
    exact hhead.trans (ih hhead.quiet hevents.2)

/-! ## Cancellation -/

theorem Move.queue_nodup {e e' : Executor} {act : Act} (h : Move e act e')
    (hnodup : e.queue.Nodup) : e'.queue.Nodup := by
  cases h with
  | enqueue i call _ _ =>
    change (if e.queue.contains call.taskId then e.queue else e.queue ++ [call.taskId]).Nodup
    by_cases hmem : call.taskId ∈ e.queue
    · rw [if_pos (List.contains_iff_mem.mpr hmem)]
      exact hnodup
    · rw [if_neg fun hcontains ↦ hmem (List.contains_iff_mem.mp hcontains),
        List.nodup_append_comm]
      exact List.nodup_cons.mpr ⟨hmem, hnodup⟩
  | finish i call _ keyId _ _ fresh _ => exact List.nodup_nil
  | dequeue queue hsublist => exact hnodup.sublist hsublist
  | restart fresh _ => exact List.nodup_nil
  | _ => exact hnodup

/-- The queue lists a task once, so taking one entry out takes the task out. -/
theorem run_queue_nodup (tasks : TaskTable) (ai : AiTables) (overBudget : List (Option ProjectId))
    (maxConcurrentPerKey : ℕ) (events : List Event) :
    (run step (stopped tasks ai overBudget maxConcurrentPerKey) events).executor.queue.Nodup := by
  have hstep (d : Daemon) (event : Event) (hnodup : d.executor.queue.Nodup) :
      (step d event).executor.queue.Nodup := (step_move d event).queue_nodup hnodup
  exact run_preserves hstep List.nodup_nil events

/-- No call of the task is on its way to a session, and no retry timeout of it is pending. -/
def Daemon.atRest (d : Daemon) (id : TaskId) : Bool :=
  (d.executor.calls.all fun call ↦ call.taskId != id || call.phase.dormant) &&
    !d.retries.contains id

/-- What the cancel route leaves behind when it accepts the request. -/
theorem quiet_cancelRoute {d : Daemon} {id : TaskId} (hmay : d.mayBecome id .cancelled = true)
    (hrest : d.atRest id = true) (hnodup : d.executor.queue.Nodup) :
    (d.cancelRoute id).Quiet id := by
  rw [Daemon.atRest, Bool.and_eq_true_iff] at hrest
  obtain ⟨status, hstatus, _⟩ := (d.mayBecome_eq_true_iff id .cancelled).mp hmay
  obtain ⟨row, hrow, _⟩ := (d.statusOf_eq_some_iff id status).mp hstatus
  unfold Daemon.cancelRoute
  rw [if_pos hmay]
  refine ⟨d.tasks.issued id row hrow, ?_, ⟨?_, ?_⟩, ?_, ?_⟩
  · intro later hlater
    rw [Daemon.statusOf_writeStatus, if_pos rfl] at hlater
    obtain ⟨_, _, heq⟩ := Option.map_eq_some_iff.mp hlater
    exact heq.symm
  · intro call hcall heq
    have hdormant := List.all_eq_true.mp hrest.1 call hcall
    simpa [heq] using hdormant
  · exact hnodup.not_mem_erase
  · have hretry : id ∉ d.retries := by simpa using hrest.2
    exact hretry
  · exact JsMap.get_delete_self _ _

/-- After its cancellation a task keeps its status, has no timer, and no effect is emitted for
it. -/
def CancellationFinal (id : TaskId) (cancelled later : Daemon) : Prop :=
  (∀ status, later.statusOf id = some status → status = .cancelled) ∧
    later.timers.get id = none ∧ cancelled.Emits (Daemon.Silent id) later

/-- A cancel request that is accepted for a task at rest is final, over every continuation that
lets the task rest. -/
theorem cancellation_final (tasks : TaskTable) (ai : AiTables)
    (overBudget : List (Option ProjectId)) (maxConcurrentPerKey : ℕ) (before : List Event)
    (id : TaskId) (after : List Event) :
    let d := run step (stopped tasks ai overBudget maxConcurrentPerKey) before
    d.mayBecome id .cancelled = true → d.atRest id = true →
      Disciplined step (fun d event ↦ lets id d event = true) (step d (.cancel id)) after →
        CancellationFinal id (step d (.cancel id)) (run step (step d (.cancel id)) after) := by
  intro d haccepted hrest hafter
  have hnodup : d.executor.queue.Nodup :=
    run_queue_nodup tasks ai overBudget maxConcurrentPerKey before
  have hquiet : (step d (.cancel id)).Quiet id := quiet_cancelRoute haccepted hrest hnodup
  have hleaves := run_leaves hquiet after hafter
  exact ⟨hleaves.quiet.cancelled, hleaves.quiet.noTimer, hleaves.silent⟩

/-- A running task is cancelled, and its session then ends with the abort. -/
theorem cancellation_final_abort :
    let d := run step oneKey [.post {}, .resume 0, .resume 0, .contextBuilt 0 (some {})]
    CancellationFinal 1 (step d (.cancel 1))
      (run step (step d (.cancel 1))
        [.sessionEnded 0 (.error { name := .abortError }), .resume 0]) :=
  cancellation_final TaskTable.empty { keys := [{ id := 1 }] } [] 5
    [.post {}, .resume 0, .resume 0, .contextBuilt 0 (some {})] 1
    [.sessionEnded 0 (.error { name := .abortError }), .resume 0]
    (by decide +kernel) (by decide +kernel) (by decide +kernel)

/-- A daemon with one key takes some events, then a cancel request, then the others. -/
def FinalAmid (id : TaskId) (before after : List Event) : Prop :=
  CancellationFinal id (step (run step oneKey before) (.cancel id))
    (run step (step (run step oneKey before) (.cancel id)) after)

/-- Runs in which the cancelled task has another status afterwards: its call waits for
`reserveForTask`, its call waits for `buildTaskRunContext`, its session ends with a limit error,
and, for the retry task 2, its timeout is pending. -/
theorem cancellation_not_final :
    ¬FinalAmid 1 [.post {}] [.resume 0, .resume 0] ∧
    ¬FinalAmid 1 [.post {}, .resume 0, .resume 0] [.contextBuilt 0 none] ∧
    ¬FinalAmid 1 [.post {}, .resume 0, .resume 0, .contextBuilt 0 (some {})]
      [.sessionEnded 0 (.error { limit := some 60 })] ∧
    ¬FinalAmid 2 [.post { maxRetries := some 1 }, .resume 0, .resume 0,
        .contextBuilt 0 (some {}), .sessionEnded 0 (.error {}), .resume 0]
      [.retryFired 0, .resume 0, .resume 0] := by
  refine ⟨?_, ?_, ?_, ?_⟩
  · intro hfinal
    exact absurd (hfinal.1 .running (by decide +kernel)) (by decide)
  · intro hfinal
    exact absurd (hfinal.1 .failed (by decide +kernel)) (by decide)
  · intro hfinal
    exact absurd (hfinal.1 .rateLimited (by decide +kernel)) (by decide)
  · intro hfinal
    exact absurd (hfinal.1 .running (by decide +kernel)) (by decide)

end Flockctl.TaskExecutor
