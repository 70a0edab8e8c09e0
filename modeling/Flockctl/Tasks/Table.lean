import Flockctl.Ai.KeySelection
import Flockctl.Collections.JsMap

/-!
# Task statuses and their transition table

The values of the status column of the tasks table, the table of allowed transitions and the
validator the routes and the question handlers consult. The plan-side statuses live with the
plan store.
-/

namespace Flockctl.Tasks

/-- `TaskStatus`: the values the daemon writes into `tasks.status`. -/
inductive TaskStatus
  | queued
  | running
  | waitingForInput
  | pendingApproval
  | rateLimited
  | done
  | failed
  | cancelled
  | timedOut
  deriving DecidableEq, Repr

open TaskStatus

/-- `TASK_STATUS_TRANSITIONS`. -/
def TASK_STATUS_TRANSITIONS : TaskStatus → List TaskStatus
  | queued => [running, cancelled]
  | running => [done, failed, cancelled, timedOut, pendingApproval, waitingForInput, rateLimited]
  | waitingForInput => [running, queued, cancelled, timedOut]
  | pendingApproval => [done, cancelled]
  | rateLimited => [queued, cancelled]
  | done => []
  | failed => [queued]
  | cancelled => [queued]
  | timedOut => [queued]

/-- `validateTaskTransition(current, next)`. -/
def validateTaskTransition (current next : TaskStatus) : Bool :=
  (TASK_STATUS_TRANSITIONS current).contains next

/-- The non-terminal statuses under which the auto-executor treats an execution task as live:
the reuse test of `executePlanTask` and the candidate query of the orphan sweep. -/
def isLiveExecution (status : TaskStatus) : Bool :=
  status == queued || status == running || status == pendingApproval ||
    status == waitingForInput || status == rateLimited

/-- Every live status may be cancelled, so the sweep and the cancel route take table edges. -/
theorem validate_cancelled_iff (status : TaskStatus) :
    validateTaskTransition status cancelled = isLiveExecution status := by
  cases status <;> rfl

/-- Out of `cancelled` the table leads to `queued` alone. -/
theorem validate_from_cancelled (next : TaskStatus) :
    validateTaskTransition cancelled next = true ↔ next = queued := by
  cases next <;> decide

theorem validate_done_iff (status : TaskStatus) :
    validateTaskTransition status done = true ↔ status = running ∨ status = pendingApproval := by
  cases status <;> decide

end Flockctl.Tasks

/-!
# The tasks table

Task rows under their primary key. The key is AUTOINCREMENT, so the table carries the sequence
that issues it, and every stored id lies at or below the sequence: an inserted row is new, also
after deletions. Columns no modelled function reads are left out.
-/

namespace Flockctl.Tasks

open Collections Ai

abbrev TaskId := ℕ

/-- `tasks.approval_status`, as the approve and reject routes write it. -/
inductive ApprovalStatus
  | approved
  | rejected
  deriving DecidableEq, Repr

/-- A row of the tasks table, without its primary key. -/
structure TaskRow where
  status : TaskStatus := .queued
  keys : TaskKeys := {}
  promptFile : Option String := none
  workingDir : Option String := none
  gitCommitBefore : Option String := none
  requiresApproval : Option Bool := some false
  approvalStatus : Option ApprovalStatus := none
  maxRetries : Option ℕ := some 0
  retryCount : Option ℕ := some 0
  parentTaskId : Option TaskId := none
  resumeAt : Option ℕ := none
  deriving DecidableEq, Repr

/-- The rows with the sequence of their primary key. -/
structure TaskTable where
  rows : JsMap TaskId TaskRow
  sequence : ℕ
  issued : ∀ (id : ℕ) row, rows.get id = some row → id ≤ sequence

namespace TaskTable

def empty : TaskTable := ⟨JsMap.empty, 0, fun _ _ h ↦ by cases h⟩

/-- `getTaskById`. -/
def get (table : TaskTable) (id : TaskId) : Option TaskRow := table.rows.get id

/-- The id the next INSERT returns. -/
def nextId (table : TaskTable) : ℕ := table.sequence + 1

/-- `INSERT INTO tasks`. -/
def insert (table : TaskTable) (row : TaskRow) : TaskTable where
  rows := table.rows.set table.nextId row
  sequence := table.nextId
  issued id stored h := by
    rw [JsMap.get_set] at h
    split at h
    · rename_i hid
      exact hid.le
    · exact (table.issued id stored h).trans (Nat.le_succ _)

/-- The row under `id`, if any, with a change applied. -/
def updateRows (rows : JsMap TaskId TaskRow) (id : TaskId) (change : TaskRow → TaskRow) :
    JsMap TaskId TaskRow :=
  match rows.get id with
  | none => rows
  | some row => rows.set id (change row)

theorem get_updateRows (rows : JsMap TaskId TaskRow) (id : TaskId)
    (change : TaskRow → TaskRow) (other : TaskId) :
    (updateRows rows id change).get other =
      if other = id then (rows.get id).map change else rows.get other := by
  unfold updateRows
  cases hrow : rows.get id with
  | none =>
    change rows.get other = if other = id then none else rows.get other
    split
    · rename_i hother
      rw [hother, hrow]
    · rfl
  | some row => exact JsMap.get_set _ _ _ _

/-- `UPDATE tasks SET … WHERE id = ?`; an unknown id changes nothing. -/
def update (table : TaskTable) (id : TaskId) (change : TaskRow → TaskRow) : TaskTable where
  rows := updateRows table.rows id change
  sequence := table.sequence
  issued other stored h := by
    rw [get_updateRows] at h
    split at h
    · rename_i hother
      obtain ⟨row, hrow, _⟩ := Option.map_eq_some_iff.mp h
      exact hother ▸ table.issued id row hrow
    · exact table.issued other stored h

/-- `DELETE FROM projects WHERE id = ?`, which cascades to the project's tasks. -/
def deleteProject (table : TaskTable) (projectId : ProjectId) : TaskTable where
  rows := table.rows.filter fun _ row ↦ decide (row.keys.projectId ≠ some projectId)
  sequence := table.sequence
  issued id row h := by
    rw [JsMap.get_filter, Option.filter_eq_some_iff] at h
    exact table.issued id row h.1

/-- `SELECT id FROM tasks WHERE …`, in primary-key order of insertion. -/
def idsWhere (table : TaskTable) (test : TaskRow → Bool) : List TaskId :=
  (table.rows.entries.filter fun entry ↦ test entry.2).map Prod.fst

@[simp] theorem get_nextId (table : TaskTable) : table.get table.nextId = none := by
  by_contra h
  obtain ⟨row, hrow⟩ := Option.ne_none_iff_exists'.mp h
  exact absurd (table.issued _ row hrow) (Nat.not_succ_le_self _)

theorem get_insert (table : TaskTable) (row : TaskRow) (id : TaskId) :
    (table.insert row).get id = if id = table.nextId then some row else table.get id :=
  JsMap.get_set _ _ _ _

theorem get_update (table : TaskTable) (id : TaskId) (change : TaskRow → TaskRow)
    (other : TaskId) :
    (table.update id change).get other =
      if other = id then (table.get id).map change else table.get other :=
  get_updateRows _ _ _ _

theorem get_deleteProject (table : TaskTable) (projectId : ProjectId) (id : TaskId) :
    (table.deleteProject projectId).get id =
      (table.get id).filter fun row ↦ decide (row.keys.projectId ≠ some projectId) :=
  JsMap.get_filter _ _ _

theorem mem_idsWhere (table : TaskTable) (test : TaskRow → Bool) (id : TaskId) :
    id ∈ table.idsWhere test ↔ ∃ row, table.get id = some row ∧ test row = true := by
  simp [idsWhere, get, ← JsMap.mem_entries_iff]

theorem nodup_idsWhere (table : TaskTable) (test : TaskRow → Bool) :
    (table.idsWhere test).Nodup :=
  table.rows.nodup.sublist (List.filter_sublist.map Prod.fst)

end TaskTable

end Flockctl.Tasks
