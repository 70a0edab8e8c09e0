import Flockctl.Tasks.Table

/-!
# Key slots

The per-key concurrency bookkeeping of the executor: a slot counter for every key and the key
reserved for every task. `reserve` increments the counter and overwrites the task's reservation;
`release` looks the reservation up by task, so a second release of the same task does nothing.
-/

namespace Flockctl.TaskExecutor

open Collections Ai Tasks

/-- `KeyPool`. -/
structure KeyPool where
  maxConcurrentPerKey : ℕ := 5
  keySlotUsage : JsMap KeyId ℕ := JsMap.empty
  reservedKeyByTask : JsMap TaskId KeyId := JsMap.empty

namespace KeyPool

/-- `keySlotUsage.get(keyId) ?? 0`. -/
def used (pool : KeyPool) (keyId : KeyId) : ℕ := (pool.keySlotUsage.get keyId).getD 0

/-- `used >= maxConcurrentPerKey`. -/
def isSaturated (pool : KeyPool) (keyId : KeyId) : Bool :=
  decide (pool.maxConcurrentPerKey ≤ pool.used keyId)

def reserve (pool : KeyPool) (taskId : TaskId) (keyId : KeyId) : KeyPool :=
  { pool with
    keySlotUsage := pool.keySlotUsage.set keyId (pool.used keyId + 1)
    reservedKeyByTask := pool.reservedKeyByTask.set taskId keyId }

/-- Give one slot of a key back. -/
def releaseSlot (pool : KeyPool) (keyId : KeyId) : JsMap KeyId ℕ :=
  if pool.used keyId ≤ 1 then pool.keySlotUsage.delete keyId
  else pool.keySlotUsage.set keyId (pool.used keyId - 1)

def release (pool : KeyPool) (taskId : TaskId) : KeyPool :=
  match pool.reservedKeyByTask.get taskId with
  | none => pool
  | some keyId =>
    { pool with
      keySlotUsage := pool.releaseSlot keyId
      reservedKeyByTask := pool.reservedKeyByTask.delete taskId }

/-- A restarted process: empty maps under the configured capacity. -/
def reset (pool : KeyPool) : KeyPool := { maxConcurrentPerKey := pool.maxConcurrentPerKey }

theorem used_reserve (pool : KeyPool) (taskId : TaskId) (keyId other : KeyId) :
    (pool.reserve taskId keyId).used other =
      pool.used other + if other = keyId then 1 else 0 := by
  unfold used reserve
  rw [JsMap.get_set]
  split
  · rename_i h
    subst h
    rfl
  · rfl

@[simp] theorem reserved_reserve (pool : KeyPool) (taskId : TaskId) (keyId : KeyId)
    (other : TaskId) :
    (pool.reserve taskId keyId).reservedKeyByTask.get other =
      if other = taskId then some keyId else pool.reservedKeyByTask.get other :=
  JsMap.get_set _ _ _ _

theorem release_of_none {pool : KeyPool} {taskId : TaskId}
    (h : pool.reservedKeyByTask.get taskId = none) : pool.release taskId = pool := by
  rw [release, h]

theorem used_release_of_some {pool : KeyPool} {taskId : TaskId} {keyId : KeyId}
    (h : pool.reservedKeyByTask.get taskId = some keyId) (other : KeyId) :
    (pool.release taskId).used other = pool.used other - if other = keyId then 1 else 0 := by
  rw [release, h]
  change ((pool.releaseSlot keyId).get other).getD 0 = _
  unfold releaseSlot
  by_cases hother : other = keyId
  · subst hother
    split
    · rename_i hused
      rw [JsMap.get_delete_self]
      simp only [Option.getD_none, if_true]
      omega
    · rw [JsMap.get_set_self]
      simp
  · split
    · rw [JsMap.get_delete_of_ne _ hother]
      rfl
    · rw [JsMap.get_set_of_ne _ _ hother]
      rfl

theorem reserved_release (pool : KeyPool) (taskId other : TaskId) :
    (pool.release taskId).reservedKeyByTask.get other =
      if other = taskId then none else pool.reservedKeyByTask.get other := by
  unfold release
  split
  · rename_i h
    split
    · rename_i hother
      rw [hother, h]
    · rfl
  · exact JsMap.get_delete _ _ _

@[simp] theorem maxConcurrentPerKey_reserve (pool : KeyPool) (taskId : TaskId) (keyId : KeyId) :
    (pool.reserve taskId keyId).maxConcurrentPerKey = pool.maxConcurrentPerKey := rfl

@[simp] theorem maxConcurrentPerKey_release (pool : KeyPool) (taskId : TaskId) :
    (pool.release taskId).maxConcurrentPerKey = pool.maxConcurrentPerKey := by
  unfold release
  split <;> rfl

/-- No counter is stored at zero: a key is listed exactly while a slot of it is in use. -/
def Tidy (pool : KeyPool) : Prop := ∀ keyId, pool.keySlotUsage.get keyId ≠ some 0

theorem Tidy.get_eq_none {pool : KeyPool} (h : pool.Tidy) {keyId : KeyId}
    (hused : pool.used keyId = 0) : pool.keySlotUsage.get keyId = none := by
  unfold used at hused
  cases hget : pool.keySlotUsage.get keyId with
  | none => rfl
  | some count =>
    rw [hget] at hused
    exact absurd (hget.trans (congrArg some hused)) (h keyId)

theorem Tidy.reserve {pool : KeyPool} (h : pool.Tidy) (taskId : TaskId) (keyId : KeyId) :
    (pool.reserve taskId keyId).Tidy := by
  intro other
  unfold KeyPool.reserve
  rw [JsMap.get_set]
  split
  · simp
  · exact h other

theorem Tidy.release {pool : KeyPool} (h : pool.Tidy) (taskId : TaskId) :
    (pool.release taskId).Tidy := by
  intro other
  unfold KeyPool.release
  split
  · exact h other
  · rename_i keyId _
    change (pool.releaseSlot keyId).get other ≠ some 0
    unfold releaseSlot
    split
    · rw [JsMap.get_delete]
      split
      · simp
      · exact h other
    · rw [JsMap.get_set]
      split
      · simp only [ne_eq, Option.some.injEq]
        omega
      · exact h other

theorem tidy_reset (pool : KeyPool) : pool.reset.Tidy := by
  intro keyId h
  cases h

end KeyPool

end Flockctl.TaskExecutor
