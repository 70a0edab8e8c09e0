import Flockctl.TaskExecutor.Lifecycle
import Flockctl.TaskExecutor.Sessions

/-!
# The writers of the status column

About fifteen statements write the status column, and few of them consult the transition table.
The ticket of a task tells each writer which status it finds, so every handler keeps an orderly
daemon orderly: unconditionally where its ticket decides, and otherwise under the condition on the
row that the handler itself does not check.
-/

namespace Flockctl.TaskExecutor

open Collections Ai Tasks Transition

namespace Daemon

/-! ## Tickets of the next daemon -/

theorem executor_tickets_push_of_some (e : Executor) {call : Call} {ticket : TaskId × Stage}
    (h : call.ticket = some ticket) : (e.push call).tickets = ticket ::ₘ e.tickets := by
  rw [Executor.tickets, Executor.inFlight_push, Multiset.filterMap_cons_some _ _ _ h]
  rfl

theorem executor_tickets_push_of_none (e : Executor) {call : Call} (h : call.ticket = none) :
    (e.push call).tickets = e.tickets := by
  rw [Executor.tickets, Executor.inFlight_push, Multiset.filterMap_cons_none _ _ h]
  rfl

theorem tickets_push_of_some (d : Daemon) {call : Call} {ticket : TaskId × Stage}
    (h : call.ticket = some ticket) : (d.push call).tickets = ticket ::ₘ d.tickets := by
  change (d.executor.push call).tickets + _ = _
  rw [executor_tickets_push_of_some _ h, Multiset.cons_add]
  rfl

theorem tickets_push_of_none (d : Daemon) {call : Call} (h : call.ticket = none) :
    (d.push call).tickets = d.tickets := by
  change (d.executor.push call).tickets + _ = _
  rw [executor_tickets_push_of_none _ h]
  rfl

theorem tickets_resumed_of_some (d : Daemon) {i : ℕ} {call : Call} {ticket : TaskId × Stage}
    (hcall : d.executor.calls[i]? = some call) (h : call.ticket = some ticket) :
    d.tickets = ticket ::ₘ tickets { d with executor := d.executor.resumed i } := by
  have hcalls : d.executor.tickets = ticket ::ₘ (d.executor.resumed i).tickets :=
    Executor.held_of_some hcall h
  rw [tickets, hcalls, Multiset.cons_add]
  rfl

theorem tickets_resumed_of_none (d : Daemon) {i : ℕ} {call : Call}
    (hcall : d.executor.calls[i]? = some call) (h : call.ticket = none) :
    d.tickets = tickets { d with executor := d.executor.resumed i } := by
  have hcalls : d.executor.tickets = (d.executor.resumed i).tickets :=
    Executor.held_of_none hcall h
  rw [tickets, hcalls]
  rfl

/-- Submitting the tasks of a list yields at most their tickets. -/
theorem tickets_submit_le (d : Daemon) (ids : List TaskId) :
    ((ids.flatMap d.submit).filterMap Call.ticket).Sublist
      (ids.map fun id ↦ (id, Stage.waiting)) := by
  induction ids with
  | nil => exact List.Sublist.refl _
  | cons id ids ih =>
    rw [List.flatMap_cons, List.filterMap_append, List.map_cons]
    cases hrow : d.tasks.get id with
    | none =>
      have hsubmit : d.submit id = [] := by rw [submit, hrow]
      rw [hsubmit]
      exact ih.cons _
    | some row =>
      have hsubmit : (d.submit id).filterMap Call.ticket = [(id, Stage.waiting)] := by
        rw [submit, hrow]
        rfl
      rw [hsubmit]
      exact ih.cons_cons _

theorem execute_of_none {d : Daemon} {id : TaskId} (hrow : d.tasks.get id = none) :
    d.execute id = d := by
  rw [execute, submit, hrow]
  simp

theorem execute_of_some {d : Daemon} {id : TaskId} {row : TaskRow}
    (hrow : d.tasks.get id = some row) :
    d.execute id = d.push ⟨id, .selecting row.keys [] (selectKeyForTask d.ai row.keys [])⟩ := by
  rw [execute, submit, hrow]
  rfl

/-- Draining the queue turns its tickets into those of fresh calls. -/
theorem tickets_finishRun_le (d : Daemon) (id : TaskId) : (d.finishRun id).tickets ≤ d.tickets := by
  have hdrained : Executor.tickets (d.finishRun id).executor ≤
      d.executor.tickets + waitingTickets d.executor.queue := by
    change Multiset.filterMap Call.ticket
      ↑(d.executor.calls ++ d.executor.queue.flatMap d.submit) ≤ _
    rw [← Multiset.coe_add, Multiset.filterMap_add]
    apply add_le_add (le_refl _)
    rw [Multiset.filterMap_coe]
    exact Multiset.coe_le.mpr (d.tickets_submit_le d.executor.queue).subperm
  calc (d.finishRun id).tickets
      = Executor.tickets (d.finishRun id).executor + (0 + waitingTickets d.retries) := rfl
    _ ≤ d.executor.tickets + waitingTickets d.executor.queue +
          (0 + waitingTickets d.retries) := by gcongr
    _ = d.tickets := by rw [zero_add, add_assoc]; rfl

/-- A retry timeout that fires gives its ticket back. -/
theorem tickets_of_retry {d : Daemon} {i : ℕ} {id : TaskId} (hretry : d.retries[i]? = some id) :
    d.tickets = (id, .waiting) ::ₘ tickets { d with retries := d.retries.eraseIdx i } := by
  obtain ⟨hi, hget⟩ := List.getElem?_eq_some_iff.mp hretry
  have hperm := List.getElem_cons_eraseIdx_perm hi
  rw [hget] at hperm
  have hwaiting : waitingTickets d.retries =
      (id, .waiting) ::ₘ waitingTickets (d.retries.eraseIdx i) :=
    (Multiset.coe_eq_coe.mpr (hperm.map fun id ↦ (id, Stage.waiting))).symm
  rw [tickets, hwaiting, Multiset.add_cons, Multiset.add_cons]
  rfl

namespace Orderly

variable {d d' : Daemon} {id : TaskId}

/-- Only the executor and the bookkeeping outside the tables change. -/
theorem of_tickets_le (h : d.Orderly) (htasks : d'.tasks = d.tasks) (htrace : d'.trace = d.trace)
    (htickets : d'.tickets ≤ d.tickets) : d'.Orderly := by
  apply h.drop (Emits.of_trace_eq htrace) _ (by rw [htasks]) htickets
  intro id status hstatus
  rw [statusOf, htasks] at hstatus
  exact hstatus

theorem resumed (h : d.Orderly) {i : ℕ} {call : Call}
    (hcall : d.executor.calls[i]? = some call) :
    Orderly { d with executor := d.executor.resumed i } := by
  have hle : tickets { d with executor := d.executor.resumed i } ≤ d.tickets := by
    cases hticket : call.ticket with
    | none => exact (d.tickets_resumed_of_none hcall hticket).ge
    | some ticket =>
      rw [d.tickets_resumed_of_some hcall hticket]
      exact Multiset.le_cons_self _ _
  exact h.of_tickets_le rfl rfl hle

/-- The task of a call with a ticket is free once the call has been resumed. -/
theorem free_resumed (h : d.Orderly) {i : ℕ} {call : Call} {stage : Stage}
    (hcall : d.executor.calls[i]? = some call) (hstage : call.phase.stage = some stage) :
    Free { d with executor := d.executor.resumed i } call.taskId ∧
      Fits { d with executor := d.executor.resumed i } call.taskId stage := by
  have hticket : call.ticket = some (call.taskId, stage) := by
    rw [Call.ticket, hstage]
    rfl
  have htickets := d.tickets_resumed_of_some hcall hticket
  have hmem : (call.taskId, stage) ∈ d.tickets := by
    rw [htickets]
    exact Multiset.mem_cons_self _ _
  have hticketed := ticketed_of_mem hmem
  refine ⟨⟨?_, h.undecided hticketed, h.issued _ hticketed⟩, h.expected _ _ hmem⟩
  have hsingle := h.single
  rw [htickets, Multiset.map_cons, Multiset.nodup_cons] at hsingle
  exact hsingle.1

theorem push_of_none (h : d.Orderly) {call : Call} (hstage : call.phase.stage = none) :
    (d.push call).Orderly := by
  have hticket : call.ticket = none := by
    rw [Call.ticket, hstage]
    rfl
  exact h.of_tickets_le rfl rfl (d.tickets_push_of_none hticket).le

theorem push (h : d.Orderly) {call : Call} {stage : Stage} (hfree : d.Free call.taskId)
    (hstage : call.phase.stage = some stage) (hfits : d.Fits call.taskId stage) :
    (d.push call).Orderly := by
  have hticket : call.ticket = some (call.taskId, stage) := by
    rw [Call.ticket, hstage]
    rfl
  exact h.enter hfree rfl rfl (d.tickets_push_of_some hticket) hfits

theorem execute (h : d.Orderly) (hfree : d.Free id) (hfits : d.Fits id .waiting) :
    (d.execute id).Orderly := by
  cases hrow : d.tasks.get id with
  | none =>
    rw [execute_of_none hrow]
    exact h
  | some row =>
    rw [execute_of_some hrow]
    exact h.push hfree rfl hfits

theorem harmless_failBeforeStart (hfits : d.Fits id .waiting) (before : TaskStatus)
    (hbefore : d.statusOf id = some before) :
    Harmless (.status .failBeforeStart id before .failed) := by
  refine harmless_status id ?_ (by simp) (by simp)
  rcases hfits before hbefore with rfl | hqueued
  · exact ⟨.inl rfl, by simp, by simp, by simp⟩
  · rw [beq_iff_eq.mp hqueued]
    exact ⟨by simp, by simp, by simp, by simp⟩

theorem harmless_start (hfits : d.Fits id .waiting) (before : TaskStatus)
    (hbefore : d.statusOf id = some before) :
    Harmless (.status .start id before .running) := by
  refine harmless_status id ?_ (by simp) (by simp)
  rcases hfits before hbefore with rfl | hqueued
  · exact ⟨.inl rfl, by simp, by simp, by simp⟩
  · rw [beq_iff_eq.mp hqueued]
    exact ⟨.inr (.inr (.inl rfl)), by simp, by simp, by simp⟩

/-- A task that is being built fails. -/
theorem harmless_fail {writer : Writer} (hwriter : writer = .overBudget ∨ writer = .contextFailed)
    (hfits : d.Fits id .building) (before : TaskStatus)
    (hbefore : d.statusOf id = some before) : Harmless (.status writer id before .failed) := by
  have hedge : before = .cancelled ∨ validateTaskTransition before .failed = true := by
    rcases hfits before hbefore with heq | hrunning
    · exact .inl heq
    · rw [beq_iff_eq.mp hrunning]
      exact .inr rfl
  have hconforms : ConformingWrite writer before .failed := by
    refine ⟨?_, by simp, by simp, ?_⟩
    · rcases hedge with heq | hvalid
      · exact .inl heq
      · exact .inr (.inr (.inl hvalid))
    · rcases hwriter with rfl | rfl <;> simp
  rcases hwriter with rfl | rfl
  · exact harmless_status id hconforms (by simp) (by simp)
  · exact harmless_status id hconforms (by simp) (by simp)

theorem fits_writeStatus {writer : Writer} {next : TaskStatus} (also : TaskRow → TaskRow)
    {stage : Stage} (hnext : stage.expects next = true) :
    (d.writeStatus writer id next also).Fits id stage := by
  intro status hstatus
  rw [statusOf_writeStatus, if_pos rfl] at hstatus
  obtain ⟨_, _, heq⟩ := Option.map_eq_some_iff.mp hstatus
  rw [← heq]
  exact .inr hnext

theorem continueReserve (h : d.Orderly) (hfree : d.Free id) (hfits : d.Fits id .waiting)
    (task : TaskKeys) (saturatedKeyIds : List KeyId) (selected : Except String AiKey) :
    (d.continueReserve id task saturatedKeyIds selected).Orderly := by
  have hpush (phase : Phase) (hstage : phase.stage = some .waiting) :
      (d.push ⟨id, phase⟩).Orderly := h.push hfree hstage hfits
  cases selected with
  | error message => exact hpush _ rfl
  | ok key =>
    simp only [Daemon.continueReserve]
    split
    · exact hpush _ rfl
    · have hgrant := hpush (.reserved (.granted key)) rfl
      exact hgrant.of_tickets_le rfl rfl (le_refl _)

theorem startRun (h : d.Orderly) (hfree : d.Free id) (hfits : d.Fits id .waiting) (key : AiKey) :
    (d.startRun id key).Orderly := by
  have hstart := h.writeStatus_free hfree (fun row ↦ row) (harmless_start hfits)
  have hrunning : (d.writeStatus .start id .running fun row ↦ row).Fits id .building :=
    fits_writeStatus _ rfl
  unfold Daemon.startRun
  split
  · exact h.push_of_none rfl
  · split
    · have hfail := hstart.1.writeStatus_free hstart.2 (fun row ↦ row)
        (harmless_fail (.inl rfl) hrunning)
      exact hfail.1.push_of_none rfl
    · exact hstart.1.push hstart.2 rfl hrunning

theorem enqueue (h : d.Orderly) (hfree : d.Free id) (hfits : d.Fits id .waiting) :
    Orderly { d with executor := d.executor.enqueue id } := by
  have habsent : id ∉ d.executor.queue := by
    intro hmem
    have hwaiting : (id, Stage.waiting) ∈ waitingTickets d.executor.queue :=
      Multiset.mem_coe.mpr (List.mem_map.mpr ⟨id, hmem, rfl⟩)
    have hticket : (id, Stage.waiting) ∈ d.tickets :=
      Multiset.mem_add.mpr (.inr (Multiset.mem_add.mpr (.inl hwaiting)))
    exact hfree.notTicketed (ticketed_of_mem hticket)
  have hqueue : (d.executor.enqueue id).queue = d.executor.queue ++ [id] := by
    apply if_neg
    intro hcontains
    exact habsent (List.contains_iff_mem.mp hcontains)
  have hwaiting : waitingTickets (d.executor.queue ++ [id]) =
      (id, .waiting) ::ₘ waitingTickets d.executor.queue := by
    rw [waitingTickets, List.map_append]
    exact Multiset.coe_eq_coe.mpr List.perm_append_comm
  have htickets : tickets { d with executor := d.executor.enqueue id } =
      (id, .waiting) ::ₘ d.tickets := by
    change d.executor.tickets + (waitingTickets (d.executor.enqueue id).queue + _) = _
    rw [hqueue, hwaiting, Multiset.cons_add, Multiset.add_cons]
    rfl
  exact h.enter hfree rfl rfl htickets hfits

theorem continueExecute (h : d.Orderly) (hfree : d.Free id) (hfits : d.Fits id .waiting)
    (reservation : Reservation) : (d.continueExecute id reservation).Orderly := by
  cases reservation with
  | granted key => exact h.startRun hfree hfits key
  | enqueue => exact h.enqueue hfree hfits
  | failed message =>
    exact (h.writeStatus_free hfree (fun row ↦ row) (harmless_failBeforeStart hfits)).1

theorem finishRun (h : d.Orderly) (id : TaskId) : (d.finishRun id).Orderly :=
  h.of_tickets_le rfl rfl (d.tickets_finishRun_le id)

theorem resume (h : d.Orderly) (i : ℕ) : (d.resume i).Orderly := by
  unfold Daemon.resume
  split
  · rename_i id task saturatedKeyIds selected hcall
    obtain ⟨hfree, hfits⟩ := h.free_resumed hcall rfl
    exact (h.resumed hcall).continueReserve hfree hfits _ _ _
  · rename_i id reservation hcall
    obtain ⟨hfree, hfits⟩ := h.free_resumed hcall rfl
    exact (h.resumed hcall).continueExecute hfree hfits _
  · rename_i id key hcall
    exact (h.resumed hcall).finishRun id
  · exact h

theorem startSession (h : d.Orderly) (hfree : d.Free id) (hfits : d.Fits id .building)
    (key : AiKey) (requiresApproval : Option Bool) (context : RunContext) :
    (d.startSession id key requiresApproval context).Orderly := by
  let started : Daemon := { d.startSession id key requiresApproval context with
    executor := d.executor }
  have hemits : Emits Harmless d started :=
    Emits.single rfl (harmless_startSession id d.nextSession)
  have hstatus (other : TaskId) : started.statusOf other = d.statusOf other := by
    change ((d.tasks.update id _).get other).map (·.status) = _
    rw [TaskTable.get_update]
    split
    · rename_i heq
      rw [heq, Option.map_map]
      rfl
    · rfl
  have hstarted : started.Orderly := by
    apply h.drop hemits _ rfl (le_refl _)
    intro other status hother
    rw [← hstatus other]
    exact hother
  have hstartedFree : started.Free id := by
    refine ⟨hfree.notTicketed, ?_, hfree.issued⟩
    rw [decisions_of_emits hemits]
    exact hfree.undecided
  have hlive : started.Fits id .live := by
    intro status hother
    rw [hstatus] at hother
    rcases hfits status hother with heq | hrunning
    · exact .inl heq
    · rw [beq_iff_eq.mp hrunning]
      exact .inr rfl
  have hticket : Call.ticket ⟨id, .live key d.nextSession
      (requiresApproval.getD (context.projectRequiresApproval.getD false))⟩ =
        some (id, .live) := rfl
  have htickets : (d.startSession id key requiresApproval context).tickets =
      (id, .live) ::ₘ started.tickets := started.tickets_push_of_some hticket
  exact hstarted.enter hstartedFree rfl rfl htickets hlive

theorem contextBuilt (h : d.Orderly) (i : ℕ) (outcome : Option RunContext) :
    (d.contextBuilt i outcome).Orderly := by
  unfold Daemon.contextBuilt
  split
  · rename_i id key requiresApproval hcall
    obtain ⟨hfree, hfits⟩ := h.free_resumed hcall rfl
    have hresumed := h.resumed hcall
    cases outcome with
    | none =>
      have hfail := hresumed.writeStatus_free hfree (fun row ↦ row)
        (harmless_fail (.inr rfl) hfits)
      exact hfail.1.push_of_none rfl
    | some context => exact hresumed.startSession hfree hfits _ _ _
  · exact h

/-- A session that ends with a status other than `cancelled` finds a running row, or one that
waits for an answer. -/
theorem running_of_fits (hfits : d.Fits id .live) {before : TaskStatus}
    (hbefore : d.statusOf id = some before) :
    before = .cancelled ∨ before = .running ∨ before = .waitingForInput := by
  rcases hfits before hbefore with heq | hexpects
  · exact .inl heq
  · rcases Bool.or_eq_true_iff.mp hexpects with hrunning | hwaiting
    · exact .inr (.inl (beq_iff_eq.mp hrunning))
    · exact .inr (.inr (beq_iff_eq.mp hwaiting))

theorem finalizeSuccess (h : d.Orderly) (hfree : d.Free id) (hfits : d.Fits id .live)
    (hanswered : d.statusOf id ≠ some .waitingForInput) (requiresApproval : Bool) :
    (d.finalizeSuccess id requiresApproval).Orderly := by
  unfold Daemon.finalizeSuccess
  split
  · exact h
  · rename_i hcancelled
    refine (h.writeStatus_free hfree _ ?_).1
    intro before hbefore
    have hrunning : before = .running := by
      rcases running_of_fits hfits hbefore with rfl | rfl | rfl
      · exact absurd hbefore hcancelled
      · rfl
      · exact absurd hbefore hanswered
    rw [hrunning]
    refine harmless_status id ?_ (by simp) (by simp)
    cases requiresApproval with
    | false => exact ⟨.inr (.inr (.inl rfl)), by simp, by simp, by simp⟩
    | true => exact ⟨.inr (.inr (.inl rfl)), by simp, by simp, by simp⟩

/-- The statuses a failed session ends with. -/
theorem finalizeError (h : d.Orderly) (hfree : d.Free id) (hfits : d.Fits id .live)
    {name : ErrorName} (hanswered : d.statusOf id = some .waitingForInput → name ≠ .other) :
    (d.finalizeError id (classifyRunError name)).Orderly ∧
      (d.finalizeError id (classifyRunError name)).Free id := by
  unfold Daemon.finalizeError
  split
  · exact ⟨h, hfree⟩
  · rename_i hcancelled
    apply h.writeStatus_free hfree
    intro before hbefore
    refine harmless_status id ?_ (by simp) (by simp)
    rcases running_of_fits hfits hbefore with rfl | rfl | rfl
    · exact absurd hbefore hcancelled
    · cases name with
      | timeoutError => exact ⟨.inr (.inr (.inl rfl)), nofun, nofun, by simp⟩
      | abortError => exact ⟨.inr (.inr (.inl rfl)), nofun, nofun, by simp⟩
      | other => exact ⟨.inr (.inr (.inl rfl)), nofun, nofun, by simp⟩
    · cases name with
      | timeoutError => exact ⟨.inr (.inr (.inl rfl)), nofun, nofun, by simp⟩
      | abortError => exact ⟨.inr (.inr (.inl rfl)), nofun, nofun, by simp⟩
      | other => exact absurd rfl (hanswered hbefore)

theorem parkRateLimited (h : d.Orderly) (hfree : d.Free id) (hfits : d.Fits id .live)
    (hanswered : d.statusOf id ≠ some .waitingForInput) (resumeAt : ℕ) :
    (d.parkRateLimited id resumeAt).Orderly := by
  have hpark : ∀ before, d.statusOf id = some before →
      Harmless (.status .parkRateLimited id before .rateLimited) := by
    intro before hbefore
    refine harmless_status id ?_ (by simp) (by simp)
    rcases running_of_fits hfits hbefore with rfl | rfl | rfl
    · exact ⟨.inl rfl, nofun, nofun, by simp⟩
    · exact ⟨.inr (.inr (.inl rfl)), nofun, nofun, by simp⟩
    · exact absurd hbefore hanswered
  have hparked := h.writeStatus_free hfree
    (fun row ↦ { row with resumeAt := some resumeAt }) hpark
  have hemits : Emits Harmless (d.writeStatus .parkRateLimited id .rateLimited
      fun row ↦ { row with resumeAt := some resumeAt }) (d.parkRateLimited id resumeAt) :=
    Emits.single rfl (harmless_armTimer id resumeAt)
  exact hparked.1.drop hemits (fun _ _ hstatus ↦ hstatus) rfl (le_refl _)

theorem scheduleRetry (h : d.Orderly) (id : TaskId) : (d.scheduleRetry id).Orderly := by
  unfold Daemon.scheduleRetry
  split
  · exact h
  · rename_i row _
    split
    · obtain ⟨hinserted, hfree⟩ := h.insert (retryRow id row)
      have hfits : Fits { d with tasks := d.tasks.insert (retryRow id row) } d.tasks.nextId
          .waiting := by
        intro status hstatus
        rw [statusOf_insert, if_pos rfl] at hstatus
        cases hstatus
        exact .inr rfl
      have hwaiting : waitingTickets (d.retries ++ [d.tasks.nextId]) =
          (d.tasks.nextId, .waiting) ::ₘ waitingTickets d.retries := by
        rw [waitingTickets, List.map_append]
        exact Multiset.coe_eq_coe.mpr List.perm_append_comm
      refine hinserted.enter hfree rfl rfl ?_ hfits
      change d.executor.tickets + (_ + waitingTickets (d.retries ++ [d.tasks.nextId])) = _
      rw [hwaiting, Multiset.add_cons, Multiset.add_cons]
      rfl
    · exact h

end Orderly

/-- The ends of a session that fit a row waiting for an answer: a shutdown, or a timeout or an
abort that is not a provider limit. -/
def quits (d : Daemon) : SessionOutcome → Bool
  | .success => false
  | .error err =>
    err.shutdown || (d.shuttingDown && err.name == .abortError) ||
      (err.limit.isNone && err.name != .other)

namespace Orderly

variable {d d' : Daemon} {id : TaskId}

theorem handleRunError (h : d.Orderly) (hfree : d.Free id) (hfits : d.Fits id .live)
    {err : RunError} (hquits : d.statusOf id = some .waitingForInput →
      d.quits (.error err) = true) : (d.handleRunError id err).Orderly := by
  unfold Daemon.handleRunError
  split
  · exact h
  · rename_i hrunning
    have hquits' (hwaiting : d.statusOf id = some .waitingForInput) :
        err.limit = none ∧ err.name ≠ .other := by
      have hends := hquits hwaiting
      unfold quits at hends
      rw [Bool.or_eq_true_iff, Bool.and_eq_true_iff] at hends
      obtain ⟨hlimit, hname⟩ := hends.resolve_left hrunning
      exact ⟨Option.isNone_iff_eq_none.mp hlimit, bne_iff_ne.mp hname⟩
    split
    · rename_i resumeAt hlimit
      apply h.parkRateLimited hfree hfits
      intro hwaiting
      rw [(hquits' hwaiting).1] at hlimit
      cases hlimit
    · have hfinal := h.finalizeError hfree hfits fun hwaiting ↦ (hquits' hwaiting).2
      split
      · rename_i hfailed
        rw [hfailed] at hfinal
        exact hfinal.1.scheduleRetry id
      · exact hfinal.1

theorem settleSession (h : d.Orderly) (hfree : d.Free id) (hfits : d.Fits id .live)
    (requiresApproval : Bool) {outcome : SessionOutcome}
    (hquits : d.statusOf id = some .waitingForInput → d.quits outcome = true) :
    (d.settleSession id requiresApproval outcome).Orderly := by
  cases outcome with
  | success =>
    apply h.finalizeSuccess hfree hfits
    intro hwaiting
    cases hquits hwaiting
  | error err => exact h.handleRunError hfree hfits hquits

theorem closeSession (h : d.Orderly) (id : TaskId) (key : AiKey) :
    (d.closeSession id key).Orderly := by
  have hpush : (d.push ⟨id, .finishing key⟩).Orderly := h.push_of_none rfl
  exact hpush.of_tickets_le rfl rfl (le_refl _)

theorem sessionEnded (h : d.Orderly) {i : ℕ} {outcome : SessionOutcome}
    (hquits : ∀ id key session requiresApproval,
      d.executor.calls[i]? = some ⟨id, .live key session requiresApproval⟩ →
        d.statusOf id = some .waitingForInput → d.quits outcome = true) :
    (d.sessionEnded i outcome).Orderly := by
  unfold Daemon.sessionEnded
  split
  · rename_i id key session requiresApproval hcall
    obtain ⟨hfree, hfits⟩ := h.free_resumed hcall rfl
    have hends := hquits id key session requiresApproval hcall
    exact ((h.resumed hcall).settleSession hfree hfits requiresApproval hends).closeSession id key
  · exact h

/-- A validated write that neither ends a session nor decides a task. -/
theorem harmless_of_mayBecome {writer : Writer} {next : TaskStatus}
    (hmay : d.mayBecome id next = true) (hdone : next ≠ .done) (hawaiting : next ≠ .pendingApproval)
    (happrove : writer ≠ .approveRoute) (hreject : writer ≠ .rejectRoute) (before : TaskStatus)
    (hbefore : d.statusOf id = some before) : Harmless (.status writer id before next) := by
  obtain ⟨status, hstatus, hvalid⟩ := (d.mayBecome_eq_true_iff id next).mp hmay
  rw [hbefore] at hstatus
  cases hstatus
  refine harmless_status id ?_ happrove hreject
  exact ⟨.inr (.inr (.inl hvalid)), fun heq ↦ absurd heq hdone, fun heq ↦ absurd heq hawaiting,
    fun heq ↦ absurd heq happrove, fun heq ↦ absurd heq hreject⟩

theorem free_of_status (h : d.Orderly) {status : TaskStatus} (hstatus : d.statusOf id = some status)
    (hdone : status ≠ .done) (hcancelled : status ≠ .cancelled) (hnot : ¬d.ticketed id) :
    d.Free id := by
  obtain ⟨row, hrow, _⟩ := (d.statusOf_eq_some_iff id _).mp hstatus
  exact ⟨hnot, h.undecided_of_status hstatus hdone hcancelled, d.tasks.issued id row hrow⟩

/-- A free task goes back to `queued` along an edge and is executed. -/
theorem requeue (h : d.Orderly) (hfree : d.Free id) {writer : Writer} {status : TaskStatus}
    (hstatus : d.statusOf id = some status)
    (hvalid : validateTaskTransition status .queued = true) (happrove : writer ≠ .approveRoute)
    (hreject : writer ≠ .rejectRoute) (also : TaskRow → TaskRow) :
    ((d.writeStatus writer id .queued also).execute id).Orderly := by
  have hmay : d.mayBecome id .queued = true :=
    (d.mayBecome_eq_true_iff id _).mpr ⟨status, hstatus, hvalid⟩
  have hqueued := h.writeStatus_free hfree also
    (harmless_of_mayBecome hmay (by simp) (by simp) happrove hreject)
  exact hqueued.1.execute hqueued.2 (fits_writeStatus also rfl)

/-- A task holds one ticket, so it has one stage. -/
theorem stage_unique (h : d.Orderly) {stage other : Stage} (hstage : (id, stage) ∈ d.tickets)
    (hother : (id, other) ∈ d.tickets) : other = stage := by
  have hpair : (id, other) = (id, stage) :=
    Multiset.inj_on_of_nodup_map h.single _ hother _ hstage rfl
  exact (Prod.mk.inj hpair).2

theorem mem_tickets_of_call {i : ℕ} {call : Call} {stage : Stage}
    (hcall : d.executor.calls[i]? = some call) (hstage : call.phase.stage = some stage) :
    (call.taskId, stage) ∈ d.tickets := by
  have hticket : call.ticket = some (call.taskId, stage) := by
    rw [Call.ticket, hstage]
    rfl
  rw [d.tickets_resumed_of_some hcall hticket]
  exact Multiset.mem_cons_self _ _

theorem questionEmitted (h : d.Orderly) (i : ℕ) : (d.questionEmitted i).Orderly := by
  unfold Daemon.questionEmitted
  split
  · rename_i id key session requiresApproval hcall
    split
    · rename_i hmay
      have hlive : (id, Stage.live) ∈ d.tickets := mem_tickets_of_call hcall rfl
      apply h.writeStatus _ (harmless_of_mayBecome hmay (by simp) (by simp) (by simp) (by simp))
      · intro stage hstage
        rw [h.stage_unique hlive hstage]
        exact .inr rfl
      · exact h.undecided (ticketed_of_mem hlive)
    · exact h
  · exact h

/-- The sessions map finds exactly the live tasks. -/
theorem live_iff_session (hexclusive : d.executor.Exclusive) :
    (id, Stage.live) ∈ d.tickets ↔ ∃ session, d.executor.sessions.get id = some session := by
  constructor
  · intro hlive
    have hcalls : (id, Stage.live) ∈ d.executor.tickets := by
      rcases Multiset.mem_add.mp hlive with hcalls | hwaiting
      · exact hcalls
      · have hnot (ids : List TaskId) : (id, Stage.live) ∉ waitingTickets ids := by
          intro hmem
          obtain ⟨other, _, heq⟩ := List.mem_map.mp (Multiset.mem_coe.mp hmem)
          cases heq
        rcases Multiset.mem_add.mp hwaiting with hmem | hmem
        · exact absurd hmem (hnot _)
        · exact absurd hmem (hnot _)
    obtain ⟨⟨taskId, phase⟩, hcall, hticket⟩ := (Multiset.mem_filterMap _ _).mp hcalls
    cases phase with
    | live key session requiresApproval =>
      cases hticket
      refine ⟨session, (hexclusive.sessions.get_iff _ _).mpr ?_⟩
      exact (Multiset.mem_filterMap _ _).mpr ⟨_, hcall, rfl⟩
    | selecting task saturatedKeyIds selected => cases hticket
    | reserved reservation => cases hticket
    | building key requiresApproval => cases hticket
    | finishing key => cases hticket
  · rintro ⟨session, hsession⟩
    have hopen := (hexclusive.sessions.get_iff _ _).mp hsession
    obtain ⟨⟨taskId, phase⟩, hcall, hopened⟩ := (Multiset.mem_filterMap _ _).mp hopen
    cases phase with
    | live key other requiresApproval =>
      cases hopened
      apply Multiset.mem_add.mpr
      exact .inl ((Multiset.mem_filterMap _ _).mpr ⟨_, hcall, rfl⟩)
    | selecting task saturatedKeyIds selected => cases hopened
    | reserved reservation => cases hopened
    | building key requiresApproval => cases hopened
    | finishing key => cases hopened

theorem answerQuestion (h : d.Orderly) (hexclusive : d.executor.Exclusive)
    (id : TaskId) (pending accepted : Bool) : (d.answerQuestion id pending accepted).Orderly := by
  unfold Daemon.answerQuestion
  split
  · split
    · rename_i session hsession
      split
      · rename_i hmay
        have hrunning := (Bool.and_eq_true_iff.mp hmay).2
        have hlive : (id, Stage.live) ∈ d.tickets :=
          (live_iff_session hexclusive).mpr ⟨session, hsession⟩
        apply h.writeStatus _ (harmless_of_mayBecome hrunning (by simp) (by simp) (by simp)
          (by simp))
        · intro stage hstage
          rw [h.stage_unique hlive hstage]
          exact .inr rfl
        · exact h.undecided (ticketed_of_mem hlive)
      · exact h
    · rename_i hsession
      split
      · rename_i hwaiting
        have hnot : ¬d.ticketed id := by
          intro hticketed
          obtain ⟨stage, hstage⟩ := ticketed_iff.mp hticketed
          have hexpects := (h.expected id stage hstage _ hwaiting).resolve_left (by simp)
          cases stage with
          | waiting => cases hexpects
          | building => cases hexpects
          | live =>
            obtain ⟨session, hsome⟩ := (live_iff_session hexclusive).mp hstage
            rw [hsession] at hsome
            cases hsome
        have hfree := h.free_of_status hwaiting (by simp) (by simp) hnot
        exact h.requeue hfree hwaiting rfl (by simp) (by simp) _
      · exact h
  · exact h

theorem createTask (h : d.Orderly) (task : NewTask) : (d.createTask task).Orderly := by
  obtain ⟨hinserted, hfree⟩ := h.insert task.toRow
  apply hinserted.execute hfree
  intro status hstatus
  rw [statusOf_insert, if_pos rfl] at hstatus
  cases hstatus
  exact .inr rfl

theorem cancelRoute (h : d.Orderly) (id : TaskId) : (d.cancelRoute id).Orderly := by
  unfold Daemon.cancelRoute
  split
  · rename_i hmay
    have hwaiting : waitingTickets (d.executor.queue.erase id) ≤
        waitingTickets d.executor.queue :=
      Multiset.coe_le.mpr (List.erase_sublist.map _).subperm
    have hle : (d.cancelExecution id).tickets ≤ d.tickets := by
      change d.executor.tickets + (waitingTickets (d.executor.queue.erase id) + _) ≤
        d.executor.tickets + (waitingTickets d.executor.queue + _)
      gcongr
      exact le_refl _
    have hdropped : (d.cancelExecution id).Orderly := h.of_tickets_le rfl rfl hle
    have hundecided : d.decisions id = 0 := by
      obtain ⟨status, hstatus, hvalid⟩ := (d.mayBecome_eq_true_iff id _).mp hmay
      apply h.undecided_of_status hstatus
      · rintro rfl
        cases hvalid
      · rintro rfl
        cases hvalid
    have hmay' : (d.cancelExecution id).mayBecome id .cancelled = true := hmay
    exact hdropped.writeStatus _
      (harmless_of_mayBecome hmay' (by simp) (by simp) (by simp) (by simp))
      (fun _ _ ↦ .inl rfl) hundecided
  · exact h

/-- An approval that does not reach a running task. -/
theorem approveRoute (h : d.Orderly) (hrunning : d.statusOf id ≠ some .running) :
    (d.approveRoute id).Orderly := by
  unfold Daemon.approveRoute
  split
  · rename_i hmay
    obtain ⟨status, hstatus, hvalid⟩ := (d.mayBecome_eq_true_iff id _).mp hmay
    rcases (validate_done_iff status).mp hvalid with rfl | rfl
    · exact absurd hstatus hrunning
    · refine h.decide _ hstatus ?_ (.inl rfl) (.inl rfl)
      exact ⟨.inr (.inr (.inl rfl)), fun _ ↦ .inr ⟨rfl, rfl⟩, nofun, by simp⟩
  · exact h

/-- The write of a reject request finds a task that awaits approval, a cancelled one, or none. -/
theorem rejectWrite (h : d.Orderly) (hstatus : ∀ status, d.statusOf id = some status →
    status = .pendingApproval ∨ status = .cancelled) : (d.rejectWrite id).Orderly := by
  by_cases hawaiting : d.statusOf id = some .pendingApproval
  · refine h.decide _ hawaiting ?_ (.inr rfl) (.inr rfl)
    exact ⟨.inr (.inr (.inl rfl)), nofun, nofun, by simp⟩
  · have hcancelled (before : TaskStatus) (hbefore : d.statusOf id = some before) :
        before = .cancelled := by
      rcases hstatus before hbefore with rfl | rfl
      · exact absurd hbefore hawaiting
      · rfl
    have hemits : Emits Harmless d (d.rejectWrite id) := by
      apply Emits.writeStatus
      intro before hbefore
      rw [hcancelled before hbefore]
      refine ⟨⟨.inl rfl, nofun, nofun, by simp⟩, ?_⟩
      intro other
      simp [decides]
    apply h.drop hemits _ rfl (le_refl _)
    intro other status hother
    rw [Daemon.rejectWrite, statusOf_writeStatus] at hother
    split at hother
    · rename_i heq
      obtain ⟨before, hbefore, hnext⟩ := Option.map_eq_some_iff.mp hother
      rw [heq, hbefore, hcancelled before hbefore, hnext]
    · exact hother

theorem rejectRoute (h : d.Orderly) (hgated : d.mayBecome id .cancelled = true →
    d.statusOf id = some .pendingApproval) : (d.rejectRoute id).Orderly := by
  unfold Daemon.rejectRoute
  split
  · exact h
  · rename_i row hrow
    split
    · rename_i hvalid
      split
      · exact h.of_tickets_le rfl rfl (le_refl _)
      · apply h.rejectWrite
        intro status hstatus
        have hrowStatus := (d.statusOf_eq_some_iff id _).mpr ⟨row, hrow, rfl⟩
        have hawaiting := hgated ((d.mayBecome_eq_true_iff id _).mpr ⟨_, hrowStatus, hvalid⟩)
        rw [hawaiting] at hstatus
        cases hstatus
        exact .inl rfl
    · exact h

theorem rollbackDone (h : d.Orderly) {i : ℕ} (hgated : ∀ id status,
    d.rejecting[i]? = some id → d.statusOf id = some status →
      status = .pendingApproval ∨ status = .cancelled) : (d.rollbackDone i).Orderly := by
  unfold Daemon.rollbackDone
  split
  · exact h
  · rename_i id hid
    have hwaited : Orderly { d with rejecting := d.rejecting.eraseIdx i } :=
      h.of_tickets_le rfl rfl (le_refl _)
    exact hwaited.rejectWrite fun status hstatus ↦ hgated id status hid hstatus

theorem resumeFromRateLimit (h : d.Orderly) (id : TaskId) :
    (d.resumeFromRateLimit id).Orderly := by
  unfold Daemon.resumeFromRateLimit
  split
  · rename_i hstatus
    have hnot : ¬d.ticketed id := h.not_ticketed hstatus (by simp) fun stage ↦ by
      cases stage <;> rfl
    have hfree := h.free_of_status hstatus (by simp) (by simp) hnot
    exact h.requeue hfree hstatus rfl (by simp) (by simp) _
  · exact h

theorem timerFired (h : d.Orderly) (id : TaskId) : (d.timerFired id).Orderly := by
  unfold Daemon.timerFired
  split
  · exact h
  · have hfired : Orderly { d with timers := d.timers.delete id } :=
      h.of_tickets_le rfl rfl (le_refl _)
    exact hfired.resumeFromRateLimit id

theorem retryFired (h : d.Orderly) (i : ℕ) : (d.retryFired i).Orderly := by
  unfold Daemon.retryFired
  split
  · exact h
  · rename_i id hretry
    have htickets := tickets_of_retry hretry
    have hfired : Orderly { d with retries := d.retries.eraseIdx i } := by
      have hle : tickets { d with retries := d.retries.eraseIdx i } ≤ d.tickets := by
        rw [htickets]
        exact Multiset.le_cons_self _ _
      exact h.of_tickets_le rfl rfl hle
    have hmem : (id, Stage.waiting) ∈ d.tickets := by
      rw [htickets]
      exact Multiset.mem_cons_self _ _
    have hsingle := h.single
    rw [htickets, Multiset.map_cons, Multiset.nodup_cons] at hsingle
    have hticketed := ticketed_of_mem hmem
    have hfree : Free { d with retries := d.retries.eraseIdx i } id :=
      ⟨hsingle.1, h.undecided hticketed, h.issued id hticketed⟩
    exact hfired.execute hfree (h.expected id _ hmem)

end Orderly

end Daemon

end Flockctl.TaskExecutor
