import Flockctl.TaskExecutor.Queue

/-!
# Which events finish a task

A row becomes `done` or `pending_approval` in two statements only: the write of `finalizeSuccess`
when a session succeeds, and the approve route.
-/

namespace Flockctl.TaskExecutor

open Collections Ai Tasks

namespace Daemon

/-- `done` and `pending_approval`. -/
def isFinal (status : TaskStatus) : Bool := status == .done || status == .pendingApproval

/-- The row of the task is `done` or `pending_approval`. -/
def Finished (d : Daemon) (id : TaskId) : Prop :=
  ∃ status, d.statusOf id = some status ∧ isFinal status = true

/-- Only tasks of one kind have finished on the way from one daemon to the other. -/
def Finishes (decided : TaskId → Prop) (d d' : Daemon) : Prop :=
  ∀ id, d'.Finished id → d.Finished id ∨ decided id

namespace Finishes

variable {decided : TaskId → Prop} {d d' d'' : Daemon} {id : TaskId}

theorem of_tasks_eq (h : d'.tasks = d.tasks) : Finishes decided d d' := by
  intro id hid
  rw [Finished, statusOf, h] at hid
  exact Or.inl hid

theorem refl (d : Daemon) : Finishes decided d d := of_tasks_eq rfl

theorem trans (h : Finishes decided d d') (h' : Finishes decided d' d'') :
    Finishes decided d d'' := by
  intro id hid
  rcases h' id hid with hfinished | hdecided
  · exact h id hfinished
  · exact Or.inr hdecided

/-- A loop whose every round finishes only decided tasks. -/
theorem foldl {α : Type} {round : Daemon → α → Daemon}
    (hround : ∀ d x, Finishes decided d (round d x)) (d : Daemon) (xs : List α) :
    Finishes decided d (xs.foldl round d) := by
  induction xs generalizing d with
  | nil => exact refl d
  | cons x xs ih => exact (hround d x).trans (ih (round d x))

theorem writeStatus (d : Daemon) (writer : Writer) (id : TaskId) (next : TaskStatus)
    (also : TaskRow → TaskRow)
    (h : isFinal next = false ∨ ∀ before, d.statusOf id = some before → decided id) :
    Finishes decided d (d.writeStatus writer id next also) := by
  intro other hother
  obtain ⟨status, hstatus, hfinal⟩ := hother
  rw [statusOf_writeStatus] at hstatus
  split at hstatus
  · rename_i heq
    obtain ⟨before, hbefore, rfl⟩ := Option.map_eq_some_iff.mp hstatus
    rcases h with hnext | hdecided
    · rw [hnext] at hfinal
      cases hfinal
    · exact Or.inr (heq ▸ hdecided before hbefore)
  · exact Or.inl ⟨status, hstatus, hfinal⟩

/-- A write of a status that is not final. -/
theorem write (d : Daemon) (writer : Writer) (id : TaskId) {next : TaskStatus}
    (also : TaskRow → TaskRow) (h : isFinal next = false) :
    Finishes decided d (d.writeStatus writer id next also) :=
  writeStatus d writer id next also (Or.inl h)

/-- A new row is queued. -/
theorem insert (d : Daemon) (row : TaskRow) (h : isFinal row.status = false) :
    Finishes decided d { d with tasks := d.tasks.insert row } := by
  intro id hid
  obtain ⟨status, hstatus, hfinal⟩ := hid
  rw [statusOf_insert] at hstatus
  split at hstatus
  · cases hstatus
    rw [h] at hfinal
    cases hfinal
  · exact Or.inl ⟨status, hstatus, hfinal⟩

theorem deleteProject (d : Daemon) (projectId : ProjectId) :
    Finishes decided d { d with tasks := d.tasks.deleteProject projectId } := by
  intro id hid
  obtain ⟨status, hstatus, hfinal⟩ := hid
  obtain ⟨row, hrow, hrowStatus⟩ := (statusOf_eq_some_iff _ _ _).mp hstatus
  change (d.tasks.deleteProject projectId).get id = some row at hrow
  rw [TaskTable.get_deleteProject, Option.filter_eq_some_iff] at hrow
  exact Or.inl ⟨status, (statusOf_eq_some_iff _ _ _).mpr ⟨row, hrow.1, hrowStatus⟩, hfinal⟩

theorem createTask (d : Daemon) (task : NewTask) : Finishes decided d (d.createTask task) :=
  (insert d task.toRow rfl).trans (of_tasks_eq rfl)

theorem executePlanTask (d : Daemon) (plan : PlanExecution) :
    Finishes decided d (d.executePlanTask plan) := by
  unfold Daemon.executePlanTask
  split
  · exact of_tasks_eq rfl
  · exact createTask d plan.task

theorem startRun (d : Daemon) (id : TaskId) (key : AiKey) :
    Finishes decided d (d.startRun id key) := by
  unfold Daemon.startRun
  split
  · exact of_tasks_eq rfl
  · split
    · have hstart : Finishes decided d (d.writeStatus .start id .running) := write d _ id _ rfl
      exact (hstart.trans (write _ .overBudget id _ rfl)).trans (of_tasks_eq rfl)
    · exact (write d .start id _ rfl).trans (of_tasks_eq rfl)

theorem resume (d : Daemon) (i : ℕ) : Finishes decided d (d.resume i) := by
  have hresumed : Finishes decided d { d with executor := d.executor.resumed i } := of_tasks_eq rfl
  unfold Daemon.resume
  split
  · refine hresumed.trans ?_
    rename_i selected _
    cases selected with
    | error message => exact of_tasks_eq rfl
    | ok key =>
      simp only [continueReserve]
      split <;> exact of_tasks_eq rfl
  · refine hresumed.trans ?_
    rename_i id reservation _
    cases reservation with
    | granted key => exact startRun _ id key
    | enqueue => exact of_tasks_eq rfl
    | failed message => exact write _ .failBeforeStart id _ rfl
  · exact of_tasks_eq rfl
  · exact refl d

theorem contextBuilt (d : Daemon) (i : ℕ) (outcome : Option RunContext) :
    Finishes decided d (d.contextBuilt i outcome) := by
  unfold Daemon.contextBuilt
  split
  · rename_i id key requiresApproval _
    have hresumed : Finishes decided d { d with executor := d.executor.resumed i } :=
      of_tasks_eq rfl
    cases outcome with
    | none =>
      exact (hresumed.trans (write _ .contextFailed id _ rfl)).trans (of_tasks_eq rfl)
    | some context =>
      intro other hother
      obtain ⟨status, hstatus, hfinal⟩ := hother
      obtain ⟨row, hrow, hrowStatus⟩ := (statusOf_eq_some_iff _ _ _).mp hstatus
      change (d.tasks.update id _).get other = some row at hrow
      rw [TaskTable.get_update] at hrow
      split at hrow
      · rename_i heq
        obtain ⟨before, hbefore, rfl⟩ := Option.map_eq_some_iff.mp hrow
        exact Or.inl ⟨status, (statusOf_eq_some_iff _ _ _).mpr
          ⟨before, heq ▸ hbefore, hrowStatus⟩, hfinal⟩
      · exact Or.inl ⟨status, (statusOf_eq_some_iff _ _ _).mpr ⟨row, hrow, hrowStatus⟩, hfinal⟩
  · exact refl d

theorem finalizeError (d : Daemon) (id : TaskId) {status : TaskStatus}
    (h : isFinal status = false) : Finishes decided d (d.finalizeError id status) := by
  unfold Daemon.finalizeError
  split
  · exact refl d
  · exact write d .finalizeError id _ h

theorem scheduleRetry (d : Daemon) (id : TaskId) : Finishes decided d (d.scheduleRetry id) := by
  unfold Daemon.scheduleRetry
  split
  · exact refl d
  · rename_i row _
    split
    · exact (insert d (retryRow id row) rfl).trans (of_tasks_eq rfl)
    · exact refl d

theorem handleRunError (d : Daemon) (id : TaskId) (err : RunError) :
    Finishes decided d (d.handleRunError id err) := by
  unfold Daemon.handleRunError
  split
  · exact refl d
  · split
    · exact (write d .parkRateLimited id _ rfl).trans (of_tasks_eq rfl)
    · split
      · exact (finalizeError d id rfl).trans (scheduleRetry _ id)
      · refine finalizeError d id ?_
        cases err.name <;> rfl

/-- A session that ends finishes its own task, and only where it succeeds and the row is not
cancelled. -/
theorem sessionEnded (d : Daemon) (i : ℕ) (outcome : SessionOutcome)
    (hdecided : ∀ id key session requiresApproval, outcome = .success →
      d.executor.calls[i]? = some ⟨id, .live key session requiresApproval⟩ →
      (d.statusOf id).isSome = true → d.statusOf id ≠ some .cancelled → decided id) :
    Finishes decided d (d.sessionEnded i outcome) := by
  unfold Daemon.sessionEnded
  split
  · rename_i id key session requiresApproval hcall
    have hresumed : Finishes decided d { d with executor := d.executor.resumed i } :=
      of_tasks_eq rfl
    have hclosed (e : Daemon) : Finishes decided e (e.closeSession id key) := of_tasks_eq rfl
    refine (hresumed.trans ?_).trans (hclosed _)
    cases outcome with
    | success =>
      simp only [settleSession, Daemon.finalizeSuccess]
      split
      · exact refl _
      · rename_i hstatus
        refine writeStatus _ _ id _ _ (Or.inr fun before hbefore ↦ ?_)
        have hsome : (d.statusOf id).isSome = true := Option.isSome_iff_exists.mpr ⟨before, hbefore⟩
        exact hdecided id key session requiresApproval rfl hcall hsome hstatus
    | error err => exact handleRunError _ id err
  · exact refl d

/-- The approve route finishes its task, where the transition is allowed. -/
theorem approveRoute (d : Daemon) (id : TaskId)
    (hdecided : d.mayBecome id .done = true → decided id) :
    Finishes decided d (d.approveRoute id) := by
  unfold Daemon.approveRoute
  split
  · rename_i hmay
    exact writeStatus d _ id _ _ (Or.inr fun _ _ ↦ hdecided hmay)
  · exact refl d

theorem boot (d : Daemon) (orphans : List TaskId) (resumed : List PlanExecution) :
    Finishes decided d (d.boot orphans resumed) := by
  have hsweep (d : Daemon) (id : TaskId) : Finishes decided d (d.sweepOrphan id) := by
    unfold sweepOrphan
    split
    · exact write d .orphanSweep id _ rfl
    · exact refl d
  have hreset (d : Daemon) (id : TaskId) : Finishes decided d (d.resetStale id) :=
    write d .resetStale id _ rfl
  have hrecover (d : Daemon) (id : TaskId) : Finishes decided d (d.recoverTimer id) := by
    unfold recoverTimer
    split <;> exact of_tasks_eq rfl
  have hrestart : Finishes decided d d.restarted := of_tasks_eq rfl
  have hswept := hrestart.trans (foldl hsweep d.restarted orphans)
  have hstale (d : Daemon) : Finishes decided d d.resetStaleTasks := foldl hreset d _
  have htimers (d : Daemon) : Finishes decided d d.recoverFromDatabase := foldl hrecover d _
  have hrecovered := (hswept.trans (hstale _)).trans (htimers _)
  have hplanned := hrecovered.trans (foldl executePlanTask _ resumed)
  have hexecute (d : Daemon) (id : TaskId) : Finishes decided d (d.execute id) := of_tasks_eq rfl
  exact hplanned.trans (foldl hexecute _ _)

end Finishes

/-- What finishes a task: a session of it succeeds while its row is not cancelled, or it is
approved. -/
def Decides (d : Daemon) (event : Event) (id : TaskId) : Prop :=
  (event = .approve id ∧ d.mayBecome id .done = true) ∨
    ∃ i key session requiresApproval, event = .sessionEnded i .success ∧
      d.executor.calls[i]? = some ⟨id, .live key session requiresApproval⟩ ∧
      (d.statusOf id).isSome = true ∧ d.statusOf id ≠ some .cancelled

/-- The step lemma for the final statuses. -/
theorem step_finishes (d : Daemon) (event : Event) :
    Finishes (d.Decides event) d (step d event) := by
  cases event with
  | post task => exact .createTask d task
  | execute id => exact .of_tasks_eq rfl
  | planTask plan => exact .executePlanTask d plan
  | resume i => exact .resume d i
  | contextBuilt i outcome => exact .contextBuilt d i outcome
  | sessionEnded i outcome =>
    refine .sessionEnded d i outcome fun id key session requiresApproval hsuccess hcall hrow ↦ ?_
    rw [hsuccess]
    exact fun hstatus ↦ Or.inr ⟨i, key, session, requiresApproval, rfl, hcall, hrow, hstatus⟩
  | questionEmitted i =>
    simp only [step, questionEmitted]
    split
    · split
      · exact .write d _ _ _ rfl
      · exact .refl d
    · exact .refl d
  | answerQuestion id pending accepted =>
    simp only [step, answerQuestion]
    split
    · split
      · split
        · exact .write d _ id _ rfl
        · exact .refl d
      · split
        · have hqueued : Finishes (d.Decides (.answerQuestion id pending accepted)) d
            (d.writeStatus .resolveQuestionCold id .queued) := .write d _ id _ rfl
          exact hqueued.trans (.of_tasks_eq rfl)
        · exact .refl d
    · exact .refl d
  | cancel id =>
    simp only [step, cancelRoute]
    split
    · have hcancel : Finishes (d.Decides (.cancel id)) d (d.cancelExecution id) := .of_tasks_eq rfl
      exact hcancel.trans (.write _ _ id _ rfl)
    · exact .refl d
  | approve id => exact .approveRoute d id fun hmay ↦ Or.inl ⟨rfl, hmay⟩
  | reject id =>
    simp only [step, rejectRoute]
    split
    · exact .refl d
    · split
      · split
        · exact .of_tasks_eq rfl
        · exact .write d _ id _ rfl
      · exact .refl d
  | rollbackDone i =>
    simp only [step, rollbackDone]
    split
    · exact .refl d
    · rename_i id _
      have herase : Finishes (d.Decides (.rollbackDone i)) d
        { d with rejecting := d.rejecting.eraseIdx i } := .of_tasks_eq rfl
      exact herase.trans (.write _ _ id _ rfl)
  | timerFired id =>
    simp only [step, timerFired]
    split
    · exact .refl d
    · have hdrop : Finishes (d.Decides (.timerFired id)) d
        { d with timers := d.timers.delete id } := .of_tasks_eq rfl
      refine hdrop.trans ?_
      unfold resumeFromRateLimit
      split
      · have hqueued : Finishes (d.Decides (.timerFired id)) { d with timers := d.timers.delete id }
            (writeStatus { d with timers := d.timers.delete id } .resumeFromRateLimit id .queued
              fun row ↦ { row with resumeAt := none }) := .write _ _ id _ rfl
        exact hqueued.trans (.of_tasks_eq rfl)
      · exact .refl _
  | retryFired i =>
    simp only [step, retryFired]
    split
    · exact .refl d
    · exact .of_tasks_eq rfl
  | deleteProject projectId => exact .deleteProject d projectId
  | edit ai overBudget => exact .of_tasks_eq rfl
  | shutdown => exact .of_tasks_eq rfl
  | boot orphans resumed => exact .boot d orphans resumed

end Daemon

end Flockctl.TaskExecutor
