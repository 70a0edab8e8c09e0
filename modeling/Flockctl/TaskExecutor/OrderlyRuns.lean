import Flockctl.TaskExecutor.Conformance

/-!
# Orderly runs

A run is orderly when `execute` is called for queued tasks without a ticket only, when approvals
and rejections reach tasks that await them, and when a session that waits for an answer ends by a
shutdown, a timeout or an abort. The status column of an orderly run conforms to the transition
table, apart from the two edges the executor takes on purpose, and a task is approved or rejected
once at most.
-/

namespace Flockctl.TaskExecutor

open Collections Ai Tasks Transition

namespace Daemon

/-! ## Boot -/

/-- The daemon as the boot sequence hands it to the milestones it resumes. -/
def beforeMilestones (d : Daemon) (orphans : List TaskId) : Daemon :=
  (orphans.foldl sweepOrphan d.restarted).resetStaleTasks.recoverFromDatabase

theorem statusOf_resetStale (d : Daemon) (ids : List TaskId) (id : TaskId) :
    (ids.foldl resetStale d).statusOf id =
      if id ∈ ids then (d.statusOf id).map fun _ ↦ .queued else d.statusOf id := by
  induction ids generalizing d with
  | nil => rfl
  | cons other ids ih =>
    rw [List.foldl_cons, ih, resetStale, statusOf_writeStatus]
    by_cases heq : id = other
    · subst heq
      cases d.statusOf id <;> simp
    · simp [heq]

theorem statusOf_execute (d : Daemon) (id other : TaskId) :
    (d.execute id).statusOf other = d.statusOf other := rfl

theorem tickets_execute (d : Daemon) {id : TaskId} {status : TaskStatus}
    (h : d.statusOf id = some status) : (d.execute id).tickets = (id, .waiting) ::ₘ d.tickets := by
  obtain ⟨row, hrow, _⟩ := (d.statusOf_eq_some_iff id status).mp h
  rw [execute_of_some hrow]
  exact d.tickets_push_of_some rfl

theorem ticketed_execute {d : Daemon} {id other : TaskId} {status : TaskStatus}
    (h : d.statusOf id = some status) (hother : (d.execute id).ticketed other) :
    other = id ∨ d.ticketed other := by
  rw [ticketed, tickets_execute d h, Multiset.map_cons, Multiset.mem_cons] at hother
  exact hother

/-- The tasks of a list are queued and hold no ticket. -/
def Unclaimed (d : Daemon) (ids : List TaskId) : Prop :=
  ∀ id ∈ ids, d.statusOf id = some .queued ∧ ¬d.ticketed id

namespace Orderly

variable {d d' : Daemon} {id : TaskId}

theorem execute_unclaimed (h : d.Orderly) {ids : List TaskId} (hnodup : ids.Nodup)
    (hids : d.Unclaimed ids) : (ids.foldl Daemon.execute d).Orderly := by
  induction ids generalizing d with
  | nil => exact h
  | cons id ids ih =>
    rw [List.nodup_cons] at hnodup
    obtain ⟨hstatus, hnot⟩ := hids id List.mem_cons_self
    have hfits : d.Fits id .waiting := by
      intro status hother
      rw [hstatus] at hother
      cases hother
      exact .inr rfl
    have hfree := h.free_of_status hstatus (by simp) (by simp) hnot
    apply ih (h.execute hfree hfits) hnodup.2
    intro other hother
    obtain ⟨hotherStatus, hotherNot⟩ := hids other (List.mem_cons_of_mem id hother)
    refine ⟨hotherStatus, ?_⟩
    intro hticketed
    rcases ticketed_execute hstatus hticketed with heq | hticketed
    · exact hnodup.1 (heq ▸ hother)
    · exact hotherNot hticketed

theorem sweepOrphan (h : d.Orderly) (id : TaskId) : (d.sweepOrphan id).Orderly := by
  unfold Daemon.sweepOrphan
  split
  · rename_i hlive
    obtain ⟨status, hstatus, hlive⟩ := (Option.any_eq_true _ _).mp hlive
    rw [← validate_cancelled_iff] at hlive
    have hmay := (d.mayBecome_eq_true_iff id .cancelled).mpr ⟨status, hstatus, hlive⟩
    have hundecided : d.decisions id = 0 := by
      apply h.undecided_of_status hstatus
      · rintro rfl
        cases hlive
      · rintro rfl
        cases hlive
    exact h.writeStatus _ (harmless_of_mayBecome hmay (by simp) (by simp) (by simp) (by simp))
      (fun _ _ ↦ .inl rfl) hundecided
  · exact h

/-- A running or queued row without a ticket goes back to `queued`. -/
theorem resetStale (h : d.Orderly) {status : TaskStatus} (hstatus : d.statusOf id = some status)
    (hstale : status = .running ∨ status = .queued) (hnot : ¬d.ticketed id) :
    (d.resetStale id).Orderly := by
  have hundecided : d.decisions id = 0 := by
    rcases hstale with rfl | rfl <;> exact h.undecided_of_status hstatus (by simp) (by simp)
  apply h.writeStatus _ _ (fun stage hmem ↦ absurd (ticketed_of_mem hmem) hnot) hundecided
  intro before hbefore
  rw [hstatus] at hbefore
  cases hbefore
  refine harmless_status id ?_ (by simp) (by simp)
  rcases hstale with rfl | rfl
  · exact ⟨by simp, nofun, nofun, by simp⟩
  · exact ⟨by simp, nofun, nofun, by simp⟩

/-- The stale reset runs while nothing is in flight. -/
theorem resetStaleTasks (h : d.Orderly) (hidle : d.tickets = 0) : d.resetStaleTasks.Orderly := by
  let Stale (d : Daemon) (id : TaskId) : Prop :=
    d.statusOf id = some .running ∨ d.statusOf id = some .queued
  have hfold (ids : List TaskId) (d : Daemon) (h : d.Orderly) (hidle : d.tickets = 0)
      (hids : ∀ id ∈ ids, Stale d id) : (ids.foldl Daemon.resetStale d).Orderly := by
    induction ids generalizing d with
    | nil => exact h
    | cons id ids ih =>
      have hnot : ¬d.ticketed id := by
        rw [ticketed, hidle]
        exact Multiset.notMem_zero id
      have hreset : (d.resetStale id).Orderly := by
        rcases hids id List.mem_cons_self with hstatus | hstatus
        · exact h.resetStale hstatus (.inl rfl) hnot
        · exact h.resetStale hstatus (.inr rfl) hnot
      apply ih _ hreset hidle
      intro other hother
      have hstale := hids other (List.mem_cons_of_mem id hother)
      unfold Stale
      rw [Daemon.resetStale, statusOf_writeStatus]
      split
      · rename_i heq
        rw [← heq]
        rcases hstale with hstatus | hstatus <;> simp [hstatus]
      · exact hstale
  apply hfold _ d h hidle
  intro id hid
  obtain ⟨row, hrow, hpass⟩ := (d.tasks.mem_idsWhere _ id).mp hid
  exact .inl ((d.statusOf_eq_some_iff id _).mpr ⟨row, hrow, beq_iff_eq.mp hpass⟩)

theorem recoverFromDatabase (h : d.Orderly) : d.recoverFromDatabase.Orderly ∧
    d.recoverFromDatabase.tasks = d.tasks ∧ d.recoverFromDatabase.tickets = d.tickets := by
  have hround (d' : Daemon) (id : TaskId)
      (h' : d'.Orderly ∧ d'.tasks = d.tasks ∧ d'.tickets = d.tickets) :
      (d'.recoverTimer id).Orderly ∧ (d'.recoverTimer id).tasks = d.tasks ∧
        (d'.recoverTimer id).tickets = d.tickets := by
    unfold recoverTimer
    split
    · exact h'
    · rename_i resumeAt _
      have hemits : Emits Harmless d' (d'.schedule id resumeAt) :=
        Emits.single rfl (harmless_armTimer id resumeAt)
      exact ⟨h'.1.drop hemits (fun _ _ hstatus ↦ hstatus) rfl (le_refl _), h'.2⟩
  have hrun := run_preserves hround ⟨h, rfl, rfl⟩
    (d.tasks.idsWhere fun row ↦ row.status == .rateLimited && row.resumeAt.isSome)
  exact hrun

/-- The milestones that are resumed dispatch fresh tasks only. -/
theorem executePlanTasks (h : d.Orderly) {ids : List TaskId} (hids : d.Unclaimed ids)
    (resumed : List PlanExecution)
    (hfresh : Disciplined Daemon.executePlanTask
      (fun d plan ↦ d.reusable plan.executionTaskId = none) d resumed) :
    (resumed.foldl Daemon.executePlanTask d).Orderly ∧
      (resumed.foldl Daemon.executePlanTask d).Unclaimed ids := by
  have hround (d : Daemon) (plan : PlanExecution) (h : d.Orderly ∧ d.Unclaimed ids)
      (hfresh : d.reusable plan.executionTaskId = none) :
      (d.executePlanTask plan).Orderly ∧ (d.executePlanTask plan).Unclaimed ids := by
    have hcreate : d.executePlanTask plan = d.createTask plan.task := by
      rw [Daemon.executePlanTask, hfresh]
    rw [hcreate]
    refine ⟨h.1.createTask plan.task, ?_⟩
    intro id hid
    obtain ⟨hstatus, hnot⟩ := h.2 id hid
    have hne := ne_nextId_of_statusOf hstatus
    have hinserted : statusOf { d with tasks := d.tasks.insert plan.task.toRow } d.tasks.nextId =
        some plan.task.toRow.status := by
      rw [statusOf_insert, if_pos rfl]
    refine ⟨?_, ?_⟩
    · rw [Daemon.createTask, statusOf_execute, statusOf_insert, if_neg hne]
      exact hstatus
    · intro hticketed
      rcases ticketed_execute hinserted hticketed with heq | hticketed
      · exact hne heq
      · exact hnot hticketed
  have hrun := run_invariant hround ⟨h, hids⟩ resumed hfresh
  exact hrun

theorem boot (h : d.Orderly) {orphans : List TaskId} {resumed : List PlanExecution}
    (hfresh : Disciplined Daemon.executePlanTask
      (fun d plan ↦ d.reusable plan.executionTaskId = none) (d.beforeMilestones orphans) resumed) :
    (d.boot orphans resumed).Orderly := by
  have hrestarted : d.restarted.Orderly := h.of_tickets_le rfl rfl (Multiset.zero_le _)
  have hsweep : (orphans.foldl Daemon.sweepOrphan d.restarted).Orderly ∧
      (orphans.foldl Daemon.sweepOrphan d.restarted).tickets = 0 := by
    have hround (d : Daemon) (id : TaskId) (h : d.Orderly ∧ d.tickets = 0) :
        (d.sweepOrphan id).Orderly ∧ (d.sweepOrphan id).tickets = 0 := by
      refine ⟨h.1.sweepOrphan id, ?_⟩
      unfold Daemon.sweepOrphan
      split <;> exact h.2
    have hrun := run_preserves hround ⟨hrestarted, rfl⟩ orphans
    exact hrun
  obtain ⟨hswept, hidle⟩ := hsweep
  have hreset := hswept.resetStaleTasks hidle
  obtain ⟨hrecovered, htasks, htickets⟩ := hreset.recoverFromDatabase
  have hunclaimed : (d.beforeMilestones orphans).Unclaimed
      (orphans.foldl Daemon.sweepOrphan d.restarted).staleIds := by
    intro id hid
    obtain ⟨row, hrow, hpass⟩ := (TaskTable.mem_idsWhere _ _ id).mp hid
    have hrowStatus := (statusOf_eq_some_iff _ id _).mpr ⟨row, hrow, rfl⟩
    refine ⟨?_, ?_⟩
    · rw [beforeMilestones, statusOf, htasks]
      change statusOf (Daemon.resetStaleTasks _) id = _
      rw [Daemon.resetStaleTasks, statusOf_resetStale, hrowStatus]
      split
      · rfl
      · rename_i hnotRunning
        rcases Bool.or_eq_true_iff.mp hpass with hrunning | hqueued
        · exact absurd ((TaskTable.mem_idsWhere _ _ id).mpr ⟨row, hrow, hrunning⟩) hnotRunning
        · rw [beq_iff_eq.mp hqueued]
    · rw [ticketed, beforeMilestones, htickets]
      have hnone : (Daemon.resetStaleTasks
          (orphans.foldl Daemon.sweepOrphan d.restarted)).tickets = 0 := by
        have hround (d : Daemon) (id : TaskId) (h : d.tickets = 0) :
            (d.resetStale id).tickets = 0 := h
        have hrun := run_preserves hround hidle
          ((orphans.foldl Daemon.sweepOrphan d.restarted).tasks.idsWhere fun row ↦
            row.status == .running)
        exact hrun
      rw [hnone]
      exact Multiset.notMem_zero id
  obtain ⟨hplanned, hstale⟩ := hrecovered.executePlanTasks hunclaimed resumed hfresh
  exact hplanned.execute_unclaimed (TaskTable.nodup_idsWhere _ _) hstale

end Orderly

/-! ## Orderly runs -/

/-- A queued task without a ticket, the only one `execute` is meant for. -/
def mayExecute (d : Daemon) (id : TaskId) : Bool :=
  d.statusOf id == some .queued && decide (id ∉ d.tickets.map Prod.fst)

theorem Orderly.execute_of_mayExecute {d : Daemon} (h : d.Orderly) {id : TaskId}
    (hmay : d.mayExecute id = true) : (d.execute id).Orderly := by
  rw [mayExecute, Bool.and_eq_true_iff] at hmay
  have hstatus : d.statusOf id = some .queued := beq_iff_eq.mp hmay.1
  have hnot : id ∉ d.tickets.map Prod.fst := of_decide_eq_true hmay.2
  have hfree := h.free_of_status hstatus (by simp) (by simp) hnot
  apply h.execute hfree
  intro status hother
  rw [hstatus] at hother
  cases hother
  exact .inr rfl

end Daemon

/-- The events of an orderly run: `execute` is called for queued tasks without a ticket, which the
auto-executor's reuse of an execution task need not be; decisions reach tasks that await them; and
a session that waits for an answer ends by a shutdown, a timeout or an abort. -/
def orderly (d : Daemon) : Event → Bool
  | .execute id => d.mayExecute id
  | .planTask plan => (d.reusable plan.executionTaskId).all d.mayExecute
  | .approve id => d.statusOf id != some .running
  | .reject id => !d.mayBecome id .cancelled || d.statusOf id == some .pendingApproval
  | .rollbackDone i => d.rejecting[i]?.all fun id ↦
      (d.statusOf id).all fun status ↦ status == .pendingApproval || status == .cancelled
  | .sessionEnded i outcome =>
    match d.executor.calls[i]? with
    | some ⟨id, .live _ _ _⟩ => d.statusOf id != some .waitingForInput || d.quits outcome
    | _ => true
  | .boot orphans resumed => decide (Disciplined Daemon.executePlanTask
      (fun d plan ↦ d.reusable plan.executionTaskId = none) (d.beforeMilestones orphans) resumed)
  | _ => true

/-- The step lemma for the rows. -/
theorem step_orderly {d : Daemon} (h : d.Orderly) (hexclusive : d.executor.Exclusive)
    {event : Event} (hevent : orderly d event = true) : (step d event).Orderly := by
  cases event with
  | post task => exact h.createTask task
  | execute id => exact h.execute_of_mayExecute hevent
  | planTask plan =>
    simp only [step, Daemon.executePlanTask]
    split
    · rename_i id hreuse
      have hmay : (d.reusable plan.executionTaskId).all d.mayExecute = true := hevent
      rw [hreuse] at hmay
      exact h.execute_of_mayExecute hmay
    · exact h.createTask plan.task
  | resume i => exact h.resume i
  | contextBuilt i outcome => exact h.contextBuilt i outcome
  | sessionEnded i outcome =>
    apply h.sessionEnded
    intro id key session requiresApproval hcall hwaiting
    simpa [orderly, hcall, hwaiting] using hevent
  | questionEmitted i => exact h.questionEmitted i
  | answerQuestion id pending accepted => exact h.answerQuestion hexclusive id pending accepted
  | cancel id => exact h.cancelRoute id
  | approve id => exact h.approveRoute (bne_iff_ne.mp hevent)
  | reject id =>
    apply h.rejectRoute
    intro hmay
    simpa [orderly, hmay] using hevent
  | rollbackDone i =>
    apply h.rollbackDone
    intro id status hid hstatus
    simpa [orderly, hid, hstatus] using hevent
  | timerFired id => exact h.timerFired id
  | retryFired i => exact h.retryFired i
  | deleteProject projectId =>
    have hstatus (id : TaskId) (status : TaskStatus)
        (hid : (step d (.deleteProject projectId)).statusOf id = some status) :
        d.statusOf id = some status := by
      obtain ⟨row, hrow, heq⟩ := (Daemon.statusOf_eq_some_iff _ _ _).mp hid
      change (d.tasks.deleteProject projectId).get id = some row at hrow
      rw [TaskTable.get_deleteProject, Option.filter_eq_some_iff] at hrow
      exact (d.statusOf_eq_some_iff id status).mpr ⟨row, hrow.1, heq⟩
    exact h.drop (Daemon.Emits.of_trace_eq rfl) hstatus rfl (le_refl _)
  | edit ai overBudget => exact h.of_tickets_le rfl rfl (le_refl _)
  | shutdown =>
    have hle : d.shutdown.tickets ≤ d.tickets := by
      change d.executor.tickets + (0 + waitingTickets d.retries) ≤
        d.executor.tickets + (waitingTickets d.executor.queue + waitingTickets d.retries)
      gcongr
      exact Multiset.zero_le _
    exact h.of_tickets_le rfl rfl hle
  | boot orphans resumed => exact h.boot (of_decide_eq_true hevent)

/-- In an orderly daemon a key is never granted to a task underway: the call that is granted it
holds the task's only ticket. -/
theorem not_underway_of_orderly {d : Daemon} (h : d.Orderly) {event : Event} {taskId : TaskId}
    {keyId : KeyId} (hact : d.act event = .grant taskId keyId) : taskId ∉ d.executor.underway := by
  cases event with
  | resume i =>
    unfold Daemon.act Executor.actOf at hact
    simp only at hact
    split at hact
    · rename_i id task saturatedKeyIds key hcall
      split at hact
      · cases hact
      · cases hact
        intro hmem
        rw [Executor.underway, Executor.held_of_none hcall rfl] at hmem
        obtain ⟨⟨other, phase⟩, hother, hunderway⟩ := (Multiset.mem_filterMap _ _).mp hmem
        apply (h.free_resumed hcall rfl).1.notTicketed
        apply Daemon.ticketed_iff.mpr
        cases phase with
        | selecting task saturatedKeyIds selected => cases hunderway
        | reserved reservation =>
          cases reservation with
          | granted key =>
            cases hunderway
            exact ⟨.waiting, Multiset.mem_add.mpr (.inl
              ((Multiset.mem_filterMap _ _).mpr ⟨_, hother, rfl⟩))⟩
          | enqueue => cases hunderway
          | failed message => cases hunderway
        | building key requiresApproval =>
          cases hunderway
          exact ⟨.building, Multiset.mem_add.mpr (.inl
            ((Multiset.mem_filterMap _ _).mpr ⟨_, hother, rfl⟩))⟩
        | live key session requiresApproval =>
          cases hunderway
          exact ⟨.live, Multiset.mem_add.mpr (.inl
            ((Multiset.mem_filterMap _ _).mpr ⟨_, hother, rfl⟩))⟩
        | finishing key => cases hunderway
    · cases hact
    · cases hact
  | _ => cases hact

section Runs

variable (tasks : TaskTable) (ai : AiTables) (overBudget : List (Option ProjectId))
  (maxConcurrentPerKey : ℕ)

theorem stopped_orderly : (stopped tasks ai overBudget maxConcurrentPerKey).Orderly where
  single := Multiset.nodup_zero
  expected _ _ hmem := absurd hmem (Multiset.notMem_zero _)
  issued _ hid := absurd hid (Multiset.notMem_zero _)
  conforms _ heffect := absurd heffect List.not_mem_nil
  decided _ hid := absurd rfl hid

/-- The run lemma: rows and sessions keep each other in order. -/
theorem run_orderly (events : List Event)
    (hevents : Disciplined step (fun d event ↦ orderly d event = true)
      (stopped tasks ai overBudget maxConcurrentPerKey) events) :
    (run step (stopped tasks ai overBudget maxConcurrentPerKey) events).Orderly := by
  have hstep (d : Daemon) (event : Event) (h : d.Orderly ∧ d.executor.Exclusive)
      (hevent : orderly d event = true) :
      (step d event).Orderly ∧ (step d event).executor.Exclusive := by
    refine ⟨step_orderly h.1 h.2 hevent, ?_⟩
    apply Executor.exclusive_of_move (step_move d event) _ h.2
    intro taskId keyId hact
    exact not_underway_of_orderly h.1 hact
  have hstart : (stopped tasks ai overBudget maxConcurrentPerKey).Orderly ∧
      (stopped tasks ai overBudget maxConcurrentPerKey).executor.Exclusive :=
    ⟨stopped_orderly tasks ai overBudget maxConcurrentPerKey, Multiset.nodup_zero, Indexes.empty⟩
  have hrun := run_invariant hstep hstart events hevents
  exact hrun.1

/-- Every status write of an orderly run conforms, and every task is decided once at most. -/
theorem statuses_conform (events : List Event)
    (hevents : Disciplined step (fun d event ↦ orderly d event = true)
      (stopped tasks ai overBudget maxConcurrentPerKey) events) :
    let d := run step (stopped tasks ai overBudget maxConcurrentPerKey) events
    (∀ effect ∈ d.trace, Conforms effect) ∧ ∀ id, d.decisions id ≤ 1 := by
  intro d
  have horderly : d.Orderly := run_orderly tasks ai overBudget maxConcurrentPerKey events hevents
  refine ⟨horderly.conforms, ?_⟩
  intro id
  by_cases hdecided : d.decisions id = 0
  · omega
  · have hone := (horderly.decided id hdecided).1
    omega

end Runs

/-- A task that needs approval runs, asks, is answered, finishes and is approved; the second
approval comes too late. -/
def approvedRun : List Event :=
  [.post { requiresApproval := some true }, .resume 0, .resume 0, .contextBuilt 0 (some {}),
    .questionEmitted 0, .answerQuestion 1 true true, .sessionEnded 0 .success, .resume 0,
    .approve 1, .approve 1]

theorem statuses_conform_approvedRun :
    (∀ effect ∈ (run step oneKey approvedRun).trace, Conforms effect) ∧
      ∀ id, (run step oneKey approvedRun).decisions id ≤ 1 :=
  statuses_conform TaskTable.empty { keys := [{ id := 1 }] } [] 5 approvedRun (by decide +kernel)

/-- Every change of a row that is not cancelled takes an edge of the transition table. -/
def EdgesOnly (d : Daemon) : Prop :=
  ∀ writer id before after, .status writer id before after ∈ d.trace → before ≠ .cancelled →
    before ≠ after → validateTaskTransition before after = true

/-- Two changes off the table that the executor makes on purpose: a queued task fails because
there is no key for it, and boot takes a running task back to the queue. -/
theorem edgesOnly_fails :
    ¬EdgesOnly (run step (stopped TaskTable.empty {} [] 5) [.post {}, .resume 0, .resume 0]) ∧
      ¬EdgesOnly (run step stoppedMidRun [.boot [] []]) := by
  refine ⟨?_, ?_⟩
  · intro hedges
    exact absurd (hedges .failBeforeStart 1 .queued .failed (by decide +kernel) (by decide)
      (by decide)) (by decide)
  · intro hedges
    exact absurd (hedges .resetStale 1 .running .queued (by decide +kernel) (by decide)
      (by decide)) (by decide)

end Flockctl.TaskExecutor
