import Flockctl.Plan.Status

/-!
# The three slice-status reducers

A slice gets its status from the statuses of its plan tasks in three places: at the end of
`executeSlice`, in `aggregateSliceStatus` after a task event, and in `reconcilePlanStatuses` at
boot. They test the same three facts of the list in different orders, and two of them may keep the
status the slice has. While an automatic retry runs, the event reducer reports `active` over
`failed`, so the three agree on some lists only; the lists are determined here, and with them
which reducer may overwrite what another one wrote.
-/

namespace Flockctl.AutoExecutor

open Plan

/-- `tasks.length > 0 && tasks.every(t => t.status === COMPLETED)`. -/
def allCompleted (tasks : List PlanTaskStatus) : Bool :=
  !tasks.isEmpty && tasks.all (· == .completed)

/-- `tasks.some(t => t.status === FAILED)`. -/
def anyFailed (tasks : List PlanTaskStatus) : Bool := tasks.any (· == .failed)

/-- `tasks.some(t => t.status === ACTIVE)`. -/
def anyActive (tasks : List PlanTaskStatus) : Bool := tasks.any (· == .active)

/-- The status `executeSlice` writes when its waves are over. -/
def executeSliceStatus (tasks : List PlanTaskStatus) : SliceStatus :=
  if allCompleted tasks then .completed
  else if anyFailed tasks then .failed
  else .active

/-- The status of a slice after `aggregateSliceStatus`. -/
def aggregateSliceStatus (tasks : List PlanTaskStatus) (current : SliceStatus) : SliceStatus :=
  if tasks.isEmpty then current
  else if tasks.all (· == .completed) then .completed
  else if anyActive tasks then .active
  else if anyFailed tasks then .failed
  else .pending

/-- The status of a slice after `reconcilePlanStatuses`. -/
def reconcileSliceStatus (tasks : List PlanTaskStatus) (current : SliceStatus) : SliceStatus :=
  if allCompleted tasks && current != .completed then .completed
  else if anyFailed tasks && current != .failed then .failed
  else current

theorem not_anyFailed_of_allCompleted {tasks : List PlanTaskStatus}
    (h : allCompleted tasks = true) : anyFailed tasks = false := by
  rw [allCompleted, Bool.and_eq_true_iff, List.all_eq_true] at h
  rw [anyFailed, List.any_eq_false]
  intro status hstatus
  rw [beq_iff_eq.mp (h.2 status hstatus)]
  decide

theorem aggregateSliceStatus_cons (first : PlanTaskStatus) (rest : List PlanTaskStatus)
    (current : SliceStatus) :
    aggregateSliceStatus (first :: rest) current =
      if allCompleted (first :: rest) then .completed
      else if anyActive (first :: rest) then .active
      else if anyFailed (first :: rest) then .failed
      else .pending := rfl

/-- Boot overwrites the status of a slice exactly when the tasks are all completed or one has
failed. -/
theorem reconcileSliceStatus_eq (tasks : List PlanTaskStatus) (current : SliceStatus) :
    reconcileSliceStatus tasks current =
      if allCompleted tasks then .completed else if anyFailed tasks then .failed else current := by
  unfold reconcileSliceStatus
  cases hall : allCompleted tasks with
  | true =>
    rw [not_anyFailed_of_allCompleted hall]
    by_cases hcurrent : current = .completed
    · simp [hcurrent]
    · simp [hcurrent]
  | false =>
    by_cases hcurrent : current = .failed
    · simp [hcurrent]
    · simp [hcurrent]

/-- The three reducers send a list to one status. -/
def ReducersAgree (tasks : List PlanTaskStatus) (current : SliceStatus) : Prop :=
  executeSliceStatus tasks = aggregateSliceStatus tasks current ∧
    aggregateSliceStatus tasks current = reconcileSliceStatus tasks current

/-- The lists on which they do: all tasks are completed; or one has failed and none is active; or
the slice is active already and no task has failed, while one is active or there is none. -/
def Settled (tasks : List PlanTaskStatus) (current : SliceStatus) : Prop :=
  allCompleted tasks = true ∨ (anyFailed tasks = true ∧ anyActive tasks = false) ∨
    (current = .active ∧ anyFailed tasks = false ∧ (anyActive tasks = true ∨ tasks = []))

theorem reducersAgree_iff_settled (tasks : List PlanTaskStatus) (current : SliceStatus) :
    ReducersAgree tasks current ↔ Settled tasks current := by
  unfold ReducersAgree Settled
  rw [reconcileSliceStatus_eq]
  cases tasks with
  | nil => simp [executeSliceStatus, aggregateSliceStatus, allCompleted, anyFailed, anyActive,
      eq_comm]
  | cons first rest =>
    rw [aggregateSliceStatus_cons, executeSliceStatus]
    cases hall : allCompleted (first :: rest) <;> cases hfailed : anyFailed (first :: rest) <;>
      cases hactive : anyActive (first :: rest) <;> simp [eq_comm]

/-- A restart keeps what `executeSlice` wrote. -/
theorem reconcile_executeSliceStatus (tasks : List PlanTaskStatus) :
    reconcileSliceStatus tasks (executeSliceStatus tasks) = executeSliceStatus tasks := by
  rw [reconcileSliceStatus_eq, executeSliceStatus]
  split
  · rfl
  · split <;> rfl

/-- A late event keeps what `executeSlice` wrote on the settled lists of an active slice only. -/
theorem aggregate_executeSliceStatus_iff (tasks : List PlanTaskStatus) :
    aggregateSliceStatus tasks (executeSliceStatus tasks) = executeSliceStatus tasks ↔
      Settled tasks .active := by
  unfold Settled
  cases tasks with
  | nil => simp [executeSliceStatus, aggregateSliceStatus, allCompleted, anyFailed, anyActive]
  | cons first rest =>
    rw [aggregateSliceStatus_cons, executeSliceStatus]
    cases hall : allCompleted (first :: rest) <;> cases hfailed : anyFailed (first :: rest) <;>
      cases hactive : anyActive (first :: rest) <;> simp

/-- The reducers agree exactly on the settled lists; on unchanged tasks a restart never flips the
status `executeSlice` wrote, and a late event flips it exactly off the settled lists. -/
theorem sliceStatus_reducers (tasks : List PlanTaskStatus) (current : SliceStatus) :
    (ReducersAgree tasks current ↔ Settled tasks current) ∧
      reconcileSliceStatus tasks (executeSliceStatus tasks) = executeSliceStatus tasks ∧
      (aggregateSliceStatus tasks (executeSliceStatus tasks) = executeSliceStatus tasks ↔
        Settled tasks .active) :=
  ⟨reducersAgree_iff_settled tasks current, reconcile_executeSliceStatus tasks,
    aggregate_executeSliceStatus_iff tasks⟩

/-- One task has failed while another one is active: the event reducer says `active`, the other
two say `failed`. -/
theorem reducers_disagree : ¬∀ tasks current, ReducersAgree tasks current := by
  intro hagree
  have hexecute : executeSliceStatus [.failed, .active] = .failed := rfl
  have hevent := (hagree [.failed, .active] .active).1
  rw [hexecute] at hevent
  cases hevent

end Flockctl.AutoExecutor
