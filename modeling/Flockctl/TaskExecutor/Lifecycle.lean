import Flockctl.TaskExecutor.Queue

/-!
# The life of a task

Seen from the status column, a submitted task holds a ticket until its session has ended: it waits
(for its key, in the queue, or for a retry timeout), it is being built, or it is live. In an
orderly daemon every task holds one ticket at most, its status is the one its stage expects unless
it has been cancelled, the status writes so far conform to the transition table, and a task that
has been approved or rejected holds no ticket and stays `done` or `cancelled`. The operations the
daemon is made of (a ticket is dropped or moved, a row is written, a new task is issued, a
decision is taken) keep an orderly daemon orderly.
-/

namespace Flockctl.TaskExecutor

open Collections Ai Tasks

/-- How far a submitted task has come. -/
inductive Stage
  | waiting
  | building
  | live
  deriving DecidableEq, Repr

/-- The statuses a stage expects. -/
def Stage.expects : Stage → TaskStatus → Bool
  | .waiting, status => status == .queued
  | .building, status => status == .running
  | .live, status => status == .running || status == .waitingForInput

/-- The stage of a call; the `finally` block writes no status. -/
def Phase.stage : Phase → Option Stage
  | .selecting _ _ _ => some .waiting
  | .reserved _ => some .waiting
  | .building _ _ => some .building
  | .live _ _ _ => some .live
  | .finishing _ => none

def Call.ticket (call : Call) : Option (TaskId × Stage) :=
  call.phase.stage.map (call.taskId, ·)

/-- The tickets of the calls. -/
def Executor.tickets (e : Executor) : Multiset (TaskId × Stage) :=
  e.inFlight.filterMap Call.ticket

/-- The tickets of tasks that wait outside any call. -/
def waitingTickets (ids : List TaskId) : Multiset (TaskId × Stage) :=
  ↑(ids.map fun id ↦ (id, Stage.waiting))

namespace Daemon

/-- All tickets: of the calls, of the queue and of the pending retry timeouts. -/
def tickets (d : Daemon) : Multiset (TaskId × Stage) :=
  d.executor.tickets + (waitingTickets d.executor.queue + waitingTickets d.retries)

def ticketed (d : Daemon) (id : TaskId) : Prop := id ∈ d.tickets.map Prod.fst

end Daemon

/-- A status write that conforms: its row was cancelled before, or it changes nothing, or it takes
an edge of the transition table, or one of the two edges the executor takes besides. A task is
done when its session has finished or its result is approved, it awaits approval when its session
has finished, and a decision meets a task that awaits it. -/
structure ConformingWrite (writer : Writer) (before after : TaskStatus) : Prop where
  edge : before = .cancelled ∨ before = after ∨ validateTaskTransition before after = true ∨
    (writer = .failBeforeStart ∧ before = .queued ∧ after = .failed) ∨
    (writer = .resetStale ∧ before = .running ∧ after = .queued)
  finished : after = .done → (writer = .finalizeSuccess ∧ before = .running) ∨
    (writer = .approveRoute ∧ before = .pendingApproval)
  awaiting : after = .pendingApproval → writer = .finalizeSuccess ∧ before = .running
  gated : (writer = .approveRoute → before = .pendingApproval) ∧
    (writer = .rejectRoute → before = .pendingApproval ∨ before = .cancelled)

def Conforms : Effect → Prop
  | .status writer _ before after => ConformingWrite writer before after
  | .armTimer _ _ => True
  | .startSession _ _ => True

/-- The effect is an approval or a rejection of a task that awaits one. -/
def decides (id : TaskId) : Effect → Bool
  | .status .approveRoute other before _ => other == id && before == .pendingApproval
  | .status .rejectRoute other before _ => other == id && before == .pendingApproval
  | _ => false

namespace Daemon

/-- How often a task has been decided. -/
def decisions (d : Daemon) (id : TaskId) : ℕ := d.trace.countP (decides id)

/-- The status of a task, if it has one, is expected by a stage. -/
def Fits (d : Daemon) (id : TaskId) (stage : Stage) : Prop :=
  ∀ status, d.statusOf id = some status → status = .cancelled ∨ stage.expects status = true

structure Orderly (d : Daemon) : Prop where
  single : (d.tickets.map Prod.fst).Nodup
  expected : ∀ id stage, (id, stage) ∈ d.tickets → d.Fits id stage
  issued : ∀ id, d.ticketed id → id ≤ d.tasks.sequence
  conforms : ∀ effect ∈ d.trace, Conforms effect
  decided : ∀ id, d.decisions id ≠ 0 → d.decisions id = 1 ∧ id ≤ d.tasks.sequence ∧
    ¬d.ticketed id ∧ ∀ status, d.statusOf id = some status → status = .done ∨ status = .cancelled

theorem ticketed_of_mem {d : Daemon} {id : TaskId} {stage : Stage}
    (h : (id, stage) ∈ d.tickets) : d.ticketed id :=
  Multiset.mem_map.mpr ⟨(id, stage), h, rfl⟩

theorem ticketed_iff {d : Daemon} {id : TaskId} :
    d.ticketed id ↔ ∃ stage, (id, stage) ∈ d.tickets := by
  constructor
  · intro h
    obtain ⟨⟨holder, stage⟩, hmem, hholder⟩ := Multiset.mem_map.mp h
    change holder = id at hholder
    exact ⟨stage, hholder ▸ hmem⟩
  · rintro ⟨stage, hmem⟩
    exact ticketed_of_mem hmem

namespace Orderly

variable {d d' : Daemon}

theorem undecided (h : d.Orderly) {id : TaskId} (hticketed : d.ticketed id) :
    d.decisions id = 0 := by
  by_contra hdecided
  exact (h.decided id hdecided).2.2.1 hticketed

theorem undecided_of_status (h : d.Orderly) {id : TaskId} {status : TaskStatus}
    (hstatus : d.statusOf id = some status) (hdone : status ≠ .done)
    (hcancelled : status ≠ .cancelled) : d.decisions id = 0 := by
  by_contra hdecided
  rcases (h.decided id hdecided).2.2.2 status hstatus with heq | heq
  · exact hdone heq
  · exact hcancelled heq

/-- A task whose status no stage expects holds no ticket. -/
theorem not_ticketed (h : d.Orderly) {id : TaskId} {status : TaskStatus}
    (hstatus : d.statusOf id = some status) (hcancelled : status ≠ .cancelled)
    (hunexpected : ∀ stage : Stage, stage.expects status = false) : ¬d.ticketed id := by
  intro hticketed
  obtain ⟨stage, hmem⟩ := ticketed_iff.mp hticketed
  rcases h.expected id stage hmem status hstatus with heq | hexpects
  · exact hcancelled heq
  · rw [hunexpected stage] at hexpects
    cases hexpects

end Orderly

/-- An effect that conforms and decides no task. -/
structure Harmless (effect : Effect) : Prop where
  conforms : Conforms effect
  undeciding : ∀ id, decides id effect = false

theorem harmless_armTimer (id : TaskId) (resumeAt : ℕ) : Harmless (.armTimer id resumeAt) :=
  ⟨trivial, fun _ ↦ rfl⟩

theorem harmless_startSession (id : TaskId) (session : SessionId) :
    Harmless (.startSession id session) := ⟨trivial, fun _ ↦ rfl⟩

/-- A conforming write by any writer but the two decision routes. -/
theorem harmless_status {writer : Writer} {before after : TaskStatus} (id : TaskId)
    (hconforms : ConformingWrite writer before after) (happrove : writer ≠ .approveRoute)
    (hreject : writer ≠ .rejectRoute) : Harmless (.status writer id before after) := by
  refine ⟨hconforms, ?_⟩
  intro other
  cases writer <;> first | rfl | exact absurd rfl happrove | exact absurd rfl hreject

/-- A task that holds no ticket, has not been decided and has been issued: it may be submitted. -/
structure Free (d : Daemon) (id : TaskId) : Prop where
  notTicketed : ¬d.ticketed id
  undecided : d.decisions id = 0
  issued : id ≤ d.tasks.sequence

namespace Orderly

variable {d d' : Daemon} {id : TaskId}

theorem conforms_of_emits (h : d.Orderly) (hemits : Emits Harmless d d') :
    ∀ effect ∈ d'.trace, Conforms effect := by
  obtain ⟨fresh, htrace, hfresh⟩ := hemits
  intro effect heffect
  rw [htrace] at heffect
  rcases List.mem_append.mp heffect with heffect | heffect
  · exact (hfresh effect heffect).conforms
  · exact h.conforms effect heffect

theorem decisions_of_emits (hemits : Emits Harmless d d') (id : TaskId) :
    d'.decisions id = d.decisions id := by
  obtain ⟨fresh, htrace, hfresh⟩ := hemits
  have hnone : fresh.countP (decides id) = 0 := by
    apply List.countP_eq_zero.mpr
    intro effect heffect
    rw [(hfresh effect heffect).undeciding id]
    exact Bool.false_ne_true
  rw [decisions, htrace, List.countP_append, hnone, Nat.zero_add]
  rfl

/-- Rows may go and tickets may be dropped. -/
theorem drop (h : d.Orderly) (hemits : Emits Harmless d d')
    (hstatus : ∀ id status, d'.statusOf id = some status → d.statusOf id = some status)
    (hsequence : d'.tasks.sequence = d.tasks.sequence) (htickets : d'.tickets ≤ d.tickets) :
    d'.Orderly := by
  have hticketed (id : TaskId) (hid : d'.ticketed id) : d.ticketed id :=
    Multiset.mem_of_le (Multiset.map_le_map htickets) hid
  refine ⟨Multiset.nodup_of_le (Multiset.map_le_map htickets) h.single, ?_, ?_,
    h.conforms_of_emits hemits, ?_⟩
  · intro id stage hmem status hd'
    exact h.expected id stage (Multiset.mem_of_le htickets hmem) status (hstatus id status hd')
  · intro id hid
    rw [hsequence]
    exact h.issued id (hticketed id hid)
  · intro id hid
    rw [decisions_of_emits hemits] at hid ⊢
    obtain ⟨hone, hissued, hfree, hfinal⟩ := h.decided id hid
    rw [hsequence]
    exact ⟨hone, hissued, fun hd' ↦ hfree (hticketed id hd'),
      fun status hd' ↦ hfinal status (hstatus id status hd')⟩

/-- A ticket for a free task, whose status the stage expects. -/
theorem enter (h : d.Orderly) (hfree : d.Free id) {stage : Stage} (htasks : d'.tasks = d.tasks)
    (htrace : d'.trace = d.trace) (htickets : d'.tickets = (id, stage) ::ₘ d.tickets)
    (hfits : d.Fits id stage) : d'.Orderly := by
  have hstatus (other : TaskId) : d'.statusOf other = d.statusOf other := by
    rw [statusOf, htasks]
    rfl
  have hticketed (other : TaskId) : d'.ticketed other ↔ other = id ∨ d.ticketed other := by
    rw [ticketed, htickets, Multiset.map_cons, Multiset.mem_cons]
    rfl
  refine ⟨?_, ?_, ?_, ?_, ?_⟩
  · rw [htickets, Multiset.map_cons, Multiset.nodup_cons]
    exact ⟨hfree.notTicketed, h.single⟩
  · intro other otherStage hmem status hd'
    rw [hstatus] at hd'
    rw [htickets, Multiset.mem_cons] at hmem
    rcases hmem with heq | hmem
    · obtain ⟨rfl, rfl⟩ := Prod.mk.inj heq
      exact hfits status hd'
    · exact h.expected other otherStage hmem status hd'
  · intro other hother
    rw [htasks]
    rcases (hticketed other).mp hother with heq | hother
    · exact heq ▸ hfree.issued
    · exact h.issued other hother
  · rw [htrace]
    exact h.conforms
  · intro other hother
    have hcount : d'.decisions other = d.decisions other := by
      rw [decisions, htrace]
      rfl
    rw [hcount] at hother ⊢
    obtain ⟨hone, hissued, hnot, hfinal⟩ := h.decided other hother
    rw [htasks]
    refine ⟨hone, hissued, ?_, fun status hd' ↦ hfinal status (hstatus other ▸ hd')⟩
    intro hd'
    rcases (hticketed other).mp hd' with heq | hd'
    · exact hother (heq ▸ hfree.undecided)
    · exact hnot hd'

/-- A conforming write to an undecided task whose stage, if any, expects the new status. -/
theorem writeStatus (h : d.Orderly) {writer : Writer} {next : TaskStatus}
    (also : TaskRow → TaskRow)
    (hconforms : ∀ before, d.statusOf id = some before →
      Harmless (.status writer id before next))
    (hexpected : ∀ stage, (id, stage) ∈ d.tickets →
      next = .cancelled ∨ stage.expects next = true)
    (hundecided : d.decisions id = 0) : (d.writeStatus writer id next also).Orderly := by
  have hemits := Emits.writeStatus d writer id next also hconforms
  refine ⟨h.single, ?_, h.issued, h.conforms_of_emits hemits, ?_⟩
  · intro other stage hmem status hstatus
    rw [statusOf_writeStatus] at hstatus
    split at hstatus
    · rename_i heq
      obtain ⟨_, _, hnext⟩ := Option.map_eq_some_iff.mp hstatus
      rw [← hnext]
      exact hexpected stage (heq ▸ hmem)
    · exact h.expected other stage hmem status hstatus
  · intro other hother
    rw [decisions_of_emits hemits] at hother ⊢
    have hne : other ≠ id := by
      intro heq
      exact hother (heq ▸ hundecided)
    obtain ⟨hone, hissued, hnot, hfinal⟩ := h.decided other hother
    refine ⟨hone, hissued, hnot, ?_⟩
    intro status hstatus
    rw [statusOf_writeStatus, if_neg hne] at hstatus
    exact hfinal status hstatus

/-- A write to a free task leaves it free. -/
theorem writeStatus_free (h : d.Orderly) (hfree : d.Free id) {writer : Writer}
    {next : TaskStatus} (also : TaskRow → TaskRow)
    (hconforms : ∀ before, d.statusOf id = some before →
      Harmless (.status writer id before next)) :
    (d.writeStatus writer id next also).Orderly ∧ (d.writeStatus writer id next also).Free id := by
  refine ⟨h.writeStatus also hconforms ?_ hfree.undecided, hfree.notTicketed, ?_, hfree.issued⟩
  · intro stage hmem
    exact absurd (ticketed_of_mem hmem) hfree.notTicketed
  · have hemits := Emits.writeStatus d writer id next also hconforms
    rw [decisions_of_emits hemits]
    exact hfree.undecided

/-- A task that awaits approval is decided. -/
theorem decide (h : d.Orderly) {writer : Writer} {next : TaskStatus} (also : TaskRow → TaskRow)
    (hstatus : d.statusOf id = some .pendingApproval)
    (hconforms : ConformingWrite writer .pendingApproval next)
    (hfinal : next = .done ∨ next = .cancelled) (hdecides : writer = .approveRoute ∨
      writer = .rejectRoute) : (d.writeStatus writer id next also).Orderly := by
  have hundecided : d.decisions id = 0 := h.undecided_of_status hstatus (by decide) (by decide)
  have hnot : ¬d.ticketed id := h.not_ticketed hstatus (by decide) fun stage ↦ by
    cases stage <;> rfl
  obtain ⟨row, hrow, hrowStatus⟩ := (d.statusOf_eq_some_iff id _).mp hstatus
  have htrace : (d.writeStatus writer id next also).trace =
      .status writer id .pendingApproval next :: d.trace := by
    change d.statusEffect writer id next ++ d.trace = _
    rw [statusEffect, hrow]
    simp only [hrowStatus]
    rfl
  have hcount (other : TaskId) : (d.writeStatus writer id next also).decisions other =
      d.decisions other + if id == other then 1 else 0 := by
    have hhead : decides other (.status writer id .pendingApproval next) = (id == other) := by
      rcases hdecides with rfl | rfl <;> simp [decides]
    rw [decisions, htrace, List.countP_cons, hhead]
    rfl
  refine ⟨h.single, ?_, h.issued, ?_, ?_⟩
  · intro other stage hmem status hother
    have hne : other ≠ id := fun heq ↦ hnot (heq ▸ ticketed_of_mem hmem)
    rw [statusOf_writeStatus, if_neg hne] at hother
    exact h.expected other stage hmem status hother
  · intro effect heffect
    rw [htrace] at heffect
    rcases List.mem_cons.mp heffect with rfl | heffect
    · exact hconforms
    · exact h.conforms effect heffect
  · intro other hother
    rw [hcount] at hother ⊢
    by_cases heq : other = id
    · subst heq
      refine ⟨by simp [hundecided], d.tasks.issued other row hrow, hnot, ?_⟩
      intro status hd'
      rw [statusOf_writeStatus, if_pos rfl] at hd'
      obtain ⟨_, _, hnext⟩ := Option.map_eq_some_iff.mp hd'
      rw [← hnext]
      exact hfinal
    · have hother' : (id == other) = false := beq_false_of_ne fun h' ↦ heq h'.symm
      rw [hother', if_neg Bool.false_ne_true, Nat.add_zero] at hother ⊢
      obtain ⟨hone, hissued, hticketed, hkept⟩ := h.decided other hother
      refine ⟨hone, hissued, hticketed, ?_⟩
      intro status hd'
      rw [statusOf_writeStatus, if_neg heq] at hd'
      exact hkept status hd'

/-- A new row is issued, and its task is free. -/
theorem insert (h : d.Orderly) (row : TaskRow) :
    Orderly { d with tasks := d.tasks.insert row } ∧
      Free { d with tasks := d.tasks.insert row } d.tasks.nextId := by
  have hnot : ¬d.ticketed d.tasks.nextId := fun hticketed ↦
    absurd (h.issued _ hticketed) (Nat.not_succ_le_self _)
  have hundecided : d.decisions d.tasks.nextId = 0 := by
    by_contra hdecided
    exact absurd (h.decided _ hdecided).2.1 (Nat.not_succ_le_self _)
  refine ⟨⟨h.single, ?_, ?_, h.conforms, ?_⟩, hnot, hundecided, le_refl _⟩
  · intro id stage hmem status hstatus
    have hne : id ≠ d.tasks.nextId := fun heq ↦ hnot (heq ▸ ticketed_of_mem hmem)
    rw [statusOf_insert, if_neg hne] at hstatus
    exact h.expected id stage hmem status hstatus
  · intro id hid
    exact Nat.le_succ_of_le (h.issued id hid)
  · intro id hid
    obtain ⟨hone, hissued, hticketed, hfinal⟩ := h.decided id hid
    have hne : id ≠ d.tasks.nextId := fun heq ↦ hid (heq ▸ hundecided)
    refine ⟨hone, Nat.le_succ_of_le hissued, hticketed, ?_⟩
    intro status hstatus
    rw [statusOf_insert, if_neg hne] at hstatus
    exact hfinal status hstatus

end Orderly

end Daemon

end Flockctl.TaskExecutor
