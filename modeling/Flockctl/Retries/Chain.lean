import Flockctl.Retries.Daemon
import Flockctl.AutoExecutor.PlanLinks

/-!
# Retries form a bounded chain of the same run

A retry is issued when a session fails, and with the failure the task's claim is gone. As long as
nobody submits a claimed task, or one whose run has failed, a task is retried once at most: the
retries below a task form a chain along which the count grows up to the budget. A retry asks for
the run of its task where that task carries no key columns, which `scheduleRetry` does not clone.
The promise that repoints the plan moves the link from the failed task to its retry.
-/

namespace Flockctl.Retries

open Collections Ai Tasks TaskExecutor AutoExecutor Plan Permissions Transition

/-- Each task is retried at most once, no more than `maxRetries` retries lie below an original, a
retry asks for the run of the task it retries, and where the promise of a retry has settled, the
link of the plan task has moved from the failed task to the retry and no plan task is linked to the
failed task any more. -/
structure RetriesSound (w : RetryDaemon) : Prop where
  once : (w.log.map Retry.failed).Nodup
  bounded : ∀ id row, w.inserted id = some row → row.retryCount = some 0 →
    (retriesBelow id w.log).length ≤ row.maxRetries.getD 0
  alike : ∀ entry ∈ w.log, entry.repeated = entry.asked
  moved : ∀ link ∈ w.repointings, ∀ location, link.before = some location →
    link.after = some location ∧ link.left = none
  repointed : ∀ entry ∈ w.log, .repointPlan entry.failed entry.retry ∈ w.promises ∨
    (∃ link ∈ w.repointings, link.previousTaskId = entry.failed ∧
      link.newTaskId = entry.retry) ∧ w.linked entry.failed = none

/-! ## The condition -/

/-- A task has a row that is neither failed nor cancelled, or it has not been issued yet. -/
def maySubmit (d : Daemon) (id : TaskId) : Bool :=
  match d.statusOf id with
  | some status => !Daemon.isOver status
  | none => decide (d.tasks.sequence < id)

/-- The tasks an event submits are submitted once, and none of them is claimed, failed or
cancelled. -/
def submitsFree (d : Daemon) (event : TaskExecutor.Event) : Bool :=
  decide (d.submissions event).Nodup && (d.submissions event).all fun id ↦
    decide (id ∉ (d.onset event).claimants) && maySubmit d id

/-- A boot, which forgets the promises. -/
def isBoot : TaskExecutor.Event → Bool
  | .boot _ _ => true
  | _ => false

namespace RetryDaemon

/-- A task that is retried was not pinned to a key and carries no list of allowed or failed keys. -/
def retriesUnkeyed (w : RetryDaemon) (event : TaskExecutor.Event) : Bool :=
  (w.daemon.retried event).all fun entry ↦
    decide ((w.retryOf entry.1 entry.2).asked.keys = { projectId := entry.2.keys.projectId })

/-- The promise that settles meets the condition of the plan lookup, and a repointing that finds a
plan task finds its location accepted, its file short enough and its retry linked to none. -/
def settlesWell (w : RetryDaemon) (listed : Bool) : Bool :=
  match w.promises with
  | [] => true
  | .syncPlan id :: _ =>
    w.plan.keepsAnswers (.syncPlanFromExecutionTask id (w.daemon.statusOf id) listed)
  | .repointPlan previousTaskId newTaskId :: _ =>
    (w.linked previousTaskId).all fun location ↦
      listed && decide (PlanStore.assertSafeLocation location = .ok ()) &&
        (w.linked newTaskId).isNone

/-- The condition on an event. -/
def sound (w : RetryDaemon) : RetryEvent → Bool
  | .daemon event _ => submitsFree w.daemon event && w.retriesUnkeyed event &&
      (!isBoot event || w.promises.isEmpty)
  | .patch _ _ => true
  | .plan event => w.plan.keepsAnswers event &&
      (w.plan.gives event).all fun id ↦ !(w.log.map Retry.failed).contains id
  | .settle listed => w.settlesWell listed

end RetryDaemon

/-! ## Chains -/

/-- A log of retries over the rows as inserted: a retry has the budget of its task and one count
more, within the budget. -/
def Counted (inserted : TaskId → Option TaskRow) (log : List Retry) : Prop :=
  ∀ entry ∈ log, ∃ row next count budget, inserted entry.failed = some row ∧
    inserted entry.retry = some next ∧ row.retryCount = some count ∧
    row.maxRetries = some budget ∧ count < budget ∧ next.retryCount = some (count + 1) ∧
    next.maxRetries = some budget

/-- The chain below a task: the latest retry has the count the length of the chain adds up to, and
all retries before it have failed in turn. -/
theorem retriesBelow_chain {inserted : TaskId → Option TaskRow} {log : List Retry}
    (hcounted : Counted inserted log) (honce : (log.map Retry.failed).Nodup) {id : TaskId}
    {row : TaskRow} (hrow : inserted id = some row) (hbelow : retriesBelow id log ≠ []) :
    id ∈ log.map Retry.failed ∧ ∃ latest rest count budget next,
      retriesBelow id log = latest :: rest ∧ row.retryCount = some count ∧
      row.maxRetries = some budget ∧ inserted latest = some next ∧
      next.retryCount = some (count + (rest.length + 1)) ∧ next.maxRetries = some budget ∧
      count + (rest.length + 1) ≤ budget ∧ ∀ older ∈ rest, older ∈ log.map Retry.failed := by
  induction log with
  | nil => exact absurd rfl hbelow
  | cons entry earlier ih =>
    have hcounted' : Counted inserted earlier := fun other hother ↦
      hcounted other (List.mem_cons_of_mem _ hother)
    rw [List.map_cons, List.nodup_cons] at honce
    obtain ⟨failedRow, next, count, budget, hfailed, hnext, hcount, hbudget, hlt, hnextCount,
      hnextBudget⟩ := hcounted entry List.mem_cons_self
    by_cases hempty : retriesBelow id earlier = []
    · -- the first retry below the task is its own
      by_cases hown : entry.failed = id
      · have hchain : retriesBelow id (entry :: earlier) = [entry.retry] := by
          rw [retriesBelow, if_pos (Or.inl hown), hempty]
        rw [← hown, hfailed] at hrow
        cases hrow
        refine ⟨by rw [← hown]; exact List.mem_cons_self, entry.retry, [], count, budget, next,
          hchain, hcount, hbudget, hnext, hnextCount, hnextBudget, hlt, ?_⟩
        intro older holder
        cases holder
      · exfalso
        apply hbelow
        rw [retriesBelow, if_neg, hempty]
        rw [hempty]
        simpa using hown
    · obtain ⟨hid, latest, rest, first, total, newest, hchain, hfirst, htotal, hnewest,
        hnewestCount, hnewestBudget, hle, hrest⟩ := ih hcounted' honce.2 hempty
      by_cases hbelow' : entry.failed = id ∨ entry.failed ∈ retriesBelow id earlier
      · -- of the chain so far only its latest retry has not failed before
        have hlatest : entry.failed = latest := by
          rcases hbelow' with hown | hmem
          · exact absurd (hown ▸ hid) honce.1
          · rw [hchain] at hmem
            rcases List.mem_cons.mp hmem with heq | hmem
            · exact heq
            · exact absurd (hrest _ hmem) honce.1
        have hgrown : retriesBelow id (entry :: earlier) = entry.retry :: latest :: rest := by
          rw [retriesBelow, if_pos hbelow', hchain]
        rw [hlatest, hnewest] at hfailed
        cases hfailed
        rw [hnewestCount] at hcount
        cases hcount
        rw [hnewestBudget] at hbudget
        cases hbudget
        refine ⟨List.mem_cons_of_mem _ hid, entry.retry, latest :: rest, first, _, next,
          hgrown, hfirst, htotal, hnext, ?_, hnextBudget, ?_, ?_⟩
        · rw [hnextCount, List.length_cons, Nat.add_assoc]
        · rw [List.length_cons]
          omega
        · intro older holder
          rcases List.mem_cons.mp holder with heq | holder
          · rw [heq, ← hlatest]
            exact List.mem_cons_self
          · exact List.mem_cons_of_mem _ (hrest older holder)
      · have hsame : retriesBelow id (entry :: earlier) = latest :: rest := by
          rw [retriesBelow, if_neg hbelow', hchain]
        exact ⟨List.mem_cons_of_mem _ hid, latest, rest, first, total, newest, hsame, hfirst,
          htotal, hnewest, hnewestCount, hnewestBudget, hle,
          fun older holder ↦ List.mem_cons_of_mem _ (hrest older holder)⟩

theorem retriesBelow_bounded {inserted : TaskId → Option TaskRow} {log : List Retry}
    (hcounted : Counted inserted log) (honce : (log.map Retry.failed).Nodup) {id : TaskId}
    {row : TaskRow} (hrow : inserted id = some row) :
    (retriesBelow id log).length ≤ row.maxRetries.getD 0 := by
  by_cases hempty : retriesBelow id log = []
  · rw [hempty]
    exact Nat.zero_le _
  · obtain ⟨_, latest, rest, count, budget, next, hchain, _, hbudget, _, _, _, hle, _⟩ :=
      retriesBelow_chain hcounted honce hrow hempty
    rw [hchain, hbudget, Option.getD_some, List.length_cons]
    omega

/-! ## The daemon keeps the chain -/

/-- No task is claimed twice, and a task that has been retried is over and not claimed. -/
structure Retired (w : RetryDaemon) : Prop where
  single : w.daemon.claimants.Nodup
  once : (w.log.map Retry.failed).Nodup
  issued : ∀ id ∈ w.log.map Retry.failed, id ≤ w.daemon.tasks.sequence
  unclaimed : ∀ id ∈ w.log.map Retry.failed, id ∉ w.daemon.claimants
  ended : ∀ id ∈ w.log.map Retry.failed, w.daemon.OverOrGone id

/-- Rows keep the origin they were inserted with, and the log is counted on them. -/
structure Recorded (w : RetryDaemon) : Prop where
  origins : ∀ id row, w.daemon.tasks.get id = some row →
    ∃ first, w.inserted id = some first ∧ Daemon.origin row = Daemon.origin first
  issued : ∀ id row, w.inserted id = some row → id ≤ w.daemon.tasks.sequence
  counted : Counted w.inserted w.log

section Advance

variable {w : RetryDaemon} {event : TaskExecutor.Event}

theorem onset_claimants_le (d : Daemon) (event : TaskExecutor.Event) :
    (d.onset event).claimants ≤ d.claimants := by
  cases event with
  | boot orphans resumed => exact Multiset.zero_le _
  | _ => exact le_refl _

/-- The claims after a step, by the tasks that may hold them, are single. -/
theorem Retired.nodup_claims (h : Retired w) (hfree : submitsFree w.daemon event = true) :
    ((w.daemon.onset event).claimants + ↑(w.daemon.submissions event)).Nodup := by
  obtain ⟨hnodup, hall⟩ := Bool.and_eq_true_iff.mp hfree
  rw [Multiset.nodup_add]
  refine ⟨Multiset.nodup_of_le (onset_claimants_le _ _) h.single,
    Multiset.coe_nodup.mpr (of_decide_eq_true hnodup), ?_⟩
  rw [Multiset.disjoint_right]
  intro id hid hclaimed
  have hsubmit := List.all_eq_true.mp hall id (Multiset.mem_coe.mp hid)
  exact of_decide_eq_true (Bool.and_eq_true_iff.mp hsubmit).1 hclaimed

/-- A task that is over, or whose row is gone, is not submitted. -/
theorem not_submitted (hfree : submitsFree w.daemon event = true) {id : TaskId}
    (hissued : id ≤ w.daemon.tasks.sequence) (hover : w.daemon.OverOrGone id) :
    id ∉ w.daemon.submissions event := by
  intro hid
  obtain ⟨_, hall⟩ := Bool.and_eq_true_iff.mp hfree
  have hmay := (Bool.and_eq_true_iff.mp (List.all_eq_true.mp hall id hid)).2
  unfold maySubmit at hmay
  split at hmay
  · rename_i status hstatus
    rw [hover status hstatus] at hmay
    cases hmay
  · exact absurd hissued (Nat.not_le_of_lt (of_decide_eq_true hmay))

theorem Retired.advance (h : Retired w) (hfree : submitsFree w.daemon event = true)
    (fresh : TaskId → TaskColumns) : Retired (w.advance event fresh) := by
  have hclaims := TaskExecutor.Daemon.step_claimants_le w.daemon event
  have hrows := TaskExecutor.Daemon.step_rewrites w.daemon event
  have hnodup := h.nodup_claims hfree
  -- what is true of the tasks retried before stays true
  have hsequence (id : TaskId) (hid : id ∈ w.log.map Retry.failed) :
      id ≤ (TaskExecutor.step w.daemon event).tasks.sequence :=
    (h.issued id hid).trans hrows.sequence
  have hidle (id : TaskId) (hid : id ∈ w.log.map Retry.failed) :
      id ∉ w.daemon.submissions event := not_submitted hfree (h.issued id hid) (h.ended id hid)
  have hunclaimed (id : TaskId) (hid : id ∈ w.log.map Retry.failed) :
      id ∉ (TaskExecutor.step w.daemon event).claimants := by
    intro hclaimed
    rcases Multiset.mem_add.mp (Multiset.mem_of_le hclaims hclaimed) with hbefore | hsubmitted
    · exact h.unclaimed id hid (Multiset.mem_of_le (onset_claimants_le _ _) hbefore)
    · exact hidle id hid (Multiset.mem_coe.mp hsubmitted)
  have hover (id : TaskId) (hid : id ∈ w.log.map Retry.failed) :
      (TaskExecutor.step w.daemon event).OverOrGone id := by
    apply hrows.ended id (h.issued id hid) _ (h.ended id hid)
    rintro (hticketed | hsubmitted)
    · exact h.unclaimed id hid hticketed
    · exact hidle id hid hsubmitted
  have hsingle := Multiset.nodup_of_le hclaims hnodup
  cases hretried : w.daemon.retried event with
  | none =>
    have hlog : (w.advance event fresh).log = w.log := by
      simp only [RetryDaemon.advance, hretried]
    refine ⟨hsingle, ?_, ?_, ?_, ?_⟩ <;> rw [hlog]
    · exact h.once
    · exact hsequence
    · exact hunclaimed
    · exact hover
  | some entry =>
    obtain ⟨id, row⟩ := entry
    have hlog : (w.advance event fresh).log.map Retry.failed = id :: w.log.map Retry.failed := by
      simp only [RetryDaemon.advance, hretried]
      rfl
    have hnew : id ∉ w.log.map Retry.failed := fun hid ↦
      h.unclaimed id hid (Daemon.ticketed_of_retried hretried)
    have hreleased : id ∉ (TaskExecutor.step w.daemon event).claimants := by
      have honset : w.daemon.onset event = w.daemon := by
        obtain ⟨_, _, _, _, _, _, _, hevent, _⟩ := Daemon.retried_spec hretried
        rw [hevent]
        rfl
      rw [honset] at hnodup
      have hle := Daemon.claimants_of_retried hretried
      exact (Multiset.nodup_cons.mp (Multiset.nodup_of_le hle hnodup)).1
    refine ⟨hsingle, ?_, ?_, ?_, ?_⟩ <;> rw [hlog]
    · exact List.nodup_cons.mpr ⟨hnew, h.once⟩
    · intro other hother
      rcases List.mem_cons.mp hother with heq | hother
      · rw [heq]
        exact (Daemon.issued_of_retried hretried).trans hrows.sequence
      · exact hsequence other hother
    · intro other hother
      rcases List.mem_cons.mp hother with heq | hother
      · rw [heq]
        exact hreleased
      · exact hunclaimed other hother
    · intro other hother
      rcases List.mem_cons.mp hother with heq | hother
      · rw [heq]
        exact Daemon.over_of_retried hretried
      · exact hover other hother

theorem inserted_advance_of_le (fresh : TaskId → TaskColumns) {id : TaskId}
    (hid : id ≤ w.daemon.tasks.sequence) : (w.advance event fresh).inserted id = w.inserted id := by
  simp only [RetryDaemon.advance]
  rw [if_neg]
  simp only [Bool.and_eq_true, decide_eq_true_eq, not_and]
  intro hlt
  exact absurd hid (Nat.not_le_of_lt hlt)

theorem inserted_advance_of_lt (fresh : TaskId → TaskColumns) {id : TaskId}
    (hid : w.daemon.tasks.sequence < id)
    (hid' : id ≤ (TaskExecutor.step w.daemon event).tasks.sequence) :
    (w.advance event fresh).inserted id = (TaskExecutor.step w.daemon event).tasks.get id := by
  simp only [RetryDaemon.advance]
  rw [if_pos]
  simp only [Bool.and_eq_true, decide_eq_true_eq]
  exact ⟨hid, hid'⟩

/-- Where a row is retried, it has a count below its budget. -/
theorem canRetry_iff (row : TaskRow) :
    Daemon.canRetry row = true ↔ ∃ count budget, row.retryCount = some count ∧
      row.maxRetries = some budget ∧ count < budget := by
  unfold Daemon.canRetry
  cases row.maxRetries with
  | none => simp
  | some budget =>
    cases row.retryCount with
    | none => simp
    | some count =>
      simp only [Bool.and_eq_true, bne_iff_ne, decide_eq_true_eq, Option.some.injEq]
      constructor
      · rintro ⟨_, hlt⟩
        exact ⟨count, budget, rfl, rfl, hlt⟩
      · rintro ⟨_, _, rfl, rfl, hlt⟩
        exact ⟨Nat.ne_zero_of_lt hlt, hlt⟩

theorem Recorded.advance (h : Recorded w) (fresh : TaskId → TaskColumns) :
    Recorded (w.advance event fresh) := by
  have hrows := TaskExecutor.Daemon.step_rewrites w.daemon event
  have hkept (id : TaskId) (row : TaskRow) (hrow : w.inserted id = some row) :
      (w.advance event fresh).inserted id = some row := by
    rw [inserted_advance_of_le fresh (h.issued id row hrow), hrow]
  have hcounted : Counted (w.advance event fresh).inserted w.log := by
    intro entry hentry
    obtain ⟨row, next, count, budget, hrow, hnext, hrest⟩ := h.counted entry hentry
    exact ⟨row, next, count, budget, hkept _ _ hrow, hkept _ _ hnext, hrest⟩
  refine ⟨?_, ?_, ?_⟩
  · intro id row hrow
    by_cases hid : id ≤ w.daemon.tasks.sequence
    · obtain ⟨before, hbefore, horigin⟩ := hrows.kept id hid row hrow
      obtain ⟨first, hfirst, horigin'⟩ := h.origins id before hbefore
      exact ⟨first, hkept id first hfirst, horigin.trans horigin'⟩
    · have hissued := (TaskExecutor.step w.daemon event).tasks.issued id row hrow
      refine ⟨row, ?_, rfl⟩
      rw [inserted_advance_of_lt fresh (Nat.lt_of_not_le hid) hissued]
      exact hrow
  · intro id row hrow
    by_cases hid : id ≤ w.daemon.tasks.sequence
    · exact hid.trans hrows.sequence
    · by_contra hlater
      have hnone : (w.advance event fresh).inserted id = w.inserted id := by
        simp only [RetryDaemon.advance]
        rw [if_neg]
        simp only [Bool.and_eq_true, decide_eq_true_eq, not_and]
        intro _ hle
        exact hlater hle
      rw [hnone] at hrow
      exact hid (h.issued id row hrow)
  · cases hretried : w.daemon.retried event with
    | none =>
      have hlog : (w.advance event fresh).log = w.log := by
        simp only [RetryDaemon.advance, hretried]
      rw [hlog]
      exact hcounted
    | some entry =>
      obtain ⟨id, row⟩ := entry
      have hlog : (w.advance event fresh).log = w.retryOf id row :: w.log := by
        simp only [RetryDaemon.advance, hretried]
      rw [hlog]
      intro other hother
      rcases List.mem_cons.mp hother with heq | hother
      · obtain ⟨hrow, hcan, _⟩ := Daemon.retried_spec hretried
        obtain ⟨count, budget, hcount, hbudget, hlt⟩ := (canRetry_iff row).mp hcan
        obtain ⟨first, hfirst, horigin⟩ := h.origins id row hrow
        obtain ⟨hnext, hsequence⟩ := Daemon.get_nextId_of_retried hretried
        have hcount' : first.retryCount = some count := by
          rw [← hcount]
          exact (congrArg TaskRow.retryCount horigin).symm
        have hbudget' : first.maxRetries = some budget := by
          rw [← hbudget]
          exact (congrArg TaskRow.maxRetries horigin).symm
        refine ⟨first, Daemon.retryRow id row, count, budget, ?_, ?_, hcount', hbudget', hlt, ?_,
          hbudget⟩
        · rw [heq]
          exact hkept id first hfirst
        · rw [heq]
          change (w.advance event fresh).inserted w.daemon.tasks.nextId = _
          have hnew : w.daemon.tasks.sequence < w.daemon.tasks.nextId := Nat.lt_succ_self _
          rw [inserted_advance_of_lt fresh hnew hsequence.ge, hnext]
        · simp only [Daemon.retryRow, hcount, Option.getD_some]
      · exact hcounted other hother

end Advance

/-! ## The plan follows the chain -/

/-- The plan store is coherent, the promise of a retry waits behind the one that links the plan to
the failed task, and a promise that has settled leaves no link to its failed task. -/
structure Following (w : RetryDaemon) : Prop where
  coherent : Coherent w.plan
  forward : ∀ previous next, .repointPlan previous next ∈ w.promises → previous ≠ next
  ordered : ∀ before previous next after, w.promises = before ++ .repointPlan previous next :: after →
    ∀ entry ∈ w.log, entry.failed = next → .repointPlan entry.failed entry.retry ∈ after
  moved : ∀ link ∈ w.repointings, ∀ location, link.before = some location →
    link.after = some location ∧ link.left = none
  settled : ∀ entry ∈ w.log, .repointPlan entry.failed entry.retry ∈ w.promises ∨
    (∃ link ∈ w.repointings, link.previousTaskId = entry.failed ∧
      link.newTaskId = entry.retry) ∧ ∀ location, w.plan.store.namedAt location ≠ some entry.failed

namespace Following

variable {w : RetryDaemon}

/-- A list that ends in `more` is split before `more` or within it. -/
theorem split_append {α : Type} {list more before after : List α} {x : α}
    (h : list ++ more = before ++ x :: after) :
    (∃ rest, list = before ++ x :: rest ∧ after = rest ++ more) ∨ x ∈ more := by
  rcases List.append_eq_append_iff.mp h with ⟨middle, _, hmore⟩ | ⟨middle, hlist, hmiddle⟩
  · right
    rw [hmore]
    exact List.mem_append_right _ List.mem_cons_self
  · cases middle with
    | nil =>
      right
      rw [List.nil_append] at hmiddle
      rw [← hmiddle]
      exact List.mem_cons_self
    | cons first rest =>
      rw [List.cons_append, List.cons.injEq] at hmiddle
      obtain ⟨rfl, hafter⟩ := hmiddle
      exact Or.inl ⟨rest, hlist, hafter⟩

/-- Promises are appended: plan syncs, and at most the repointing of a retry that is issued. -/
theorem append (h : Following w) (hretired : Retired w) {w' : RetryDaemon}
    (hplan : w'.plan = w.plan) (hlinks : w'.repointings = w.repointings) {more : List PlanPromise}
    (hpromises : w'.promises = w.promises ++ more)
    (hlog : (w'.log = w.log ∧ ∀ previous next, .repointPlan previous next ∉ more) ∨
      ∃ entry, w'.log = entry :: w.log ∧ entry.failed ≤ w.daemon.tasks.sequence ∧
        entry.retry = w.daemon.tasks.nextId ∧ .repointPlan entry.failed entry.retry ∈ more ∧
        ∀ previous next, .repointPlan previous next ∈ more →
          previous = entry.failed ∧ next = entry.retry) : Following w' := by
  have hsettled : ∀ entry ∈ w.log, .repointPlan entry.failed entry.retry ∈ w'.promises ∨
      (∃ link ∈ w'.repointings, link.previousTaskId = entry.failed ∧
        link.newTaskId = entry.retry) ∧
      ∀ location, w'.plan.store.namedAt location ≠ some entry.failed := by
    intro entry hentry
    rw [hplan, hlinks, hpromises]
    rcases h.settled entry hentry with hwaiting | hdone
    · exact Or.inl (List.mem_append_left _ hwaiting)
    · exact Or.inr hdone
  have hold : ∀ before previous next after,
      w'.promises = before ++ .repointPlan previous next :: after →
      .repointPlan previous next ∉ more → ∀ entry ∈ w.log, entry.failed = next →
        .repointPlan entry.failed entry.retry ∈ after := by
    intro before previous next after hsplit hnew entry hentry hfailed
    rw [hpromises] at hsplit
    rcases split_append hsplit with ⟨rest, hrest, hafter⟩ | hmore
    · rw [hafter]
      exact List.mem_append_left _ (h.ordered before previous next rest hrest entry hentry hfailed)
    · exact absurd hmore hnew
  have hissued : ∀ entry ∈ w.log, entry.failed ≠ w.daemon.tasks.nextId := by
    intro entry hentry
    exact (Nat.lt_succ_of_le (hretired.issued _ (List.mem_map_of_mem hentry))).ne
  rcases hlog with ⟨hlog, hnone⟩ | ⟨entry, hlog, hle, hretry, hmem, honly⟩
  · refine ⟨hplan ▸ h.coherent, ?_, ?_, hlinks ▸ h.moved, ?_⟩
    · intro previous next hpromise
      rw [hpromises] at hpromise
      rcases List.mem_append.mp hpromise with hpromise | hpromise
      · exact h.forward previous next hpromise
      · exact absurd hpromise (hnone previous next)
    · intro before previous next after hsplit
      rw [hlog]
      exact hold before previous next after hsplit (hnone previous next)
    · rw [hlog]
      exact hsettled
  · have hne : entry.failed ≠ entry.retry := by
      rw [hretry]
      exact (Nat.lt_succ_of_le hle).ne
    refine ⟨hplan ▸ h.coherent, ?_, ?_, hlinks ▸ h.moved, ?_⟩
    · intro previous next hpromise
      rw [hpromises] at hpromise
      rcases List.mem_append.mp hpromise with hpromise | hpromise
      · exact h.forward previous next hpromise
      · obtain ⟨rfl, rfl⟩ := honly previous next hpromise
        exact hne
    · intro before previous next after hsplit other hother hfailed
      rw [hlog] at hother
      by_cases hnew : .repointPlan previous next ∈ more
      · -- nothing has failed yet that is linked by the new promise
        obtain ⟨rfl, rfl⟩ := honly previous next hnew
        rcases List.mem_cons.mp hother with heq | hother
        · rw [heq] at hfailed
          exact absurd hfailed hne
        · exact absurd (hfailed.trans hretry) (hissued other hother)
      · rcases List.mem_cons.mp hother with heq | hother
        · rw [hpromises] at hsplit
          rcases split_append hsplit with ⟨rest, _, hafter⟩ | hmore
          · rw [hafter, heq]
            exact List.mem_append_right _ hmem
          · exact absurd hmore hnew
        · exact hold before previous next after hsplit hnew other hother hfailed
    · intro other hother
      rw [hlog] at hother
      rcases List.mem_cons.mp hother with heq | hother
      · left
        rw [heq, hpromises]
        exact List.mem_append_right _ hmem
      · exact hsettled other hother

theorem advance (h : Following w) (hretired : Retired w) {event : TaskExecutor.Event}
    (hboot : (!isBoot event || w.promises.isEmpty) = true) (fresh : TaskId → TaskColumns) :
    Following (w.advance event fresh) := by
  have hkept : w.keptPromises event = w.promises := by
    cases event with
    | boot orphans resumed => exact (List.isEmpty_iff.mp hboot).symm
    | _ => rfl
  have hpromises : (w.advance event fresh).promises = w.promises ++ w.promisesOf event := by
    rw [← hkept]
    rfl
  have hsyncs (previous next : TaskId) :
      .repointPlan previous next ∉ (syncedPlans w.daemon event).map PlanPromise.syncPlan := by
    intro hmem
    obtain ⟨_, _, heq⟩ := List.mem_map.mp hmem
    cases heq
  have hplan : (w.advance event fresh).plan = w.plan := rfl
  apply h.append hretired hplan rfl hpromises
  unfold RetryDaemon.promisesOf
  cases hretried : w.daemon.retried event with
  | none =>
    left
    refine ⟨by simp only [RetryDaemon.advance, hretried], ?_⟩
    intro previous next hmem
    rw [List.append_nil] at hmem
    exact hsyncs previous next hmem
  | some entry =>
    obtain ⟨id, row⟩ := entry
    right
    refine ⟨w.retryOf id row, by simp only [RetryDaemon.advance, hretried],
      Daemon.issued_of_retried hretried, rfl, ?_, ?_⟩
    · exact List.mem_append_right _ List.mem_cons_self
    · intro previous next hmem
      rcases List.mem_append.mp hmem with hmem | hmem
      · exact absurd hmem (hsyncs previous next)
      · cases List.mem_singleton.mp hmem
        exact ⟨rfl, rfl⟩

/-- An operation on the plan store that links nothing to a failed task. -/
theorem plan (h : Following w) {event : ResolverEvent} (hkeeps : w.plan.keepsAnswers event = true)
    (hgives : (w.plan.gives event).all (fun id ↦ !(w.log.map Retry.failed).contains id) = true) :
    Following { w with plan := w.plan.step event } where
  coherent := h.coherent.step event hkeeps
  forward := h.forward
  ordered := h.ordered
  moved := h.moved
  settled entry hentry := by
    rcases h.settled entry hentry with hwaiting | ⟨hlink, hunlinked⟩
    · exact Or.inl hwaiting
    · refine Or.inr ⟨hlink, ?_⟩
      intro location hnamed
      rcases Resolver.named_of_step h.coherent hkeeps hnamed with hbefore | hgiven
      · exact hunlinked location hbefore
      · rw [hgiven, Option.all_some, Bool.not_eq_true', List.contains_eq_mem,
          decide_eq_false_iff_not] at hgives
        exact hgives (List.mem_map_of_mem hentry)

/-- The first promise is taken off. -/
theorem tail (h : Following w) {promise : PlanPromise} {rest : List PlanPromise}
    (hpromises : w.promises = promise :: rest) :
    (∀ previous next, .repointPlan previous next ∈ rest → previous ≠ next) ∧
      ∀ before previous next after, rest = before ++ .repointPlan previous next :: after →
        ∀ entry ∈ w.log, entry.failed = next →
          .repointPlan entry.failed entry.retry ∈ after := by
  refine ⟨?_, ?_⟩
  · intro previous next hmem
    apply h.forward previous next
    rw [hpromises]
    exact List.mem_cons_of_mem _ hmem
  · intro before previous next after hrest
    apply h.ordered (promise :: before) previous next after
    rw [hpromises, hrest, List.cons_append]

theorem settle_sync (h : Following w) {id : TaskId} {rest : List PlanPromise}
    (hpromises : w.promises = .syncPlan id :: rest) {listed : Bool}
    (hwell : w.settlesWell listed = true) : Following (w.settle listed) := by
  have hkeeps : w.plan.keepsAnswers
      (.syncPlanFromExecutionTask id (w.daemon.statusOf id) listed) = true := by
    simpa only [RetryDaemon.settlesWell, hpromises] using hwell
  obtain ⟨hforward, hordered⟩ := h.tail hpromises
  have hsettle : w.settle listed =
      { w with
        promises := rest
        plan := w.plan.syncPlanFromExecutionTask id (w.daemon.statusOf id) listed } := by
    unfold RetryDaemon.settle
    rw [hpromises]
  rw [hsettle]
  refine ⟨h.coherent.syncPlanFromExecutionTask hkeeps, hforward, hordered, h.moved, ?_⟩
  intro entry hentry
  rcases h.settled entry hentry with hwaiting | ⟨hlink, hunlinked⟩
  · left
    rw [hpromises] at hwaiting
    rcases List.mem_cons.mp hwaiting with heq | hwaiting
    · cases heq
    · exact hwaiting
  · refine Or.inr ⟨hlink, ?_⟩
    intro location
    rw [h.coherent.syncPlanFromExecutionTask_names hkeeps]
    exact hunlinked location

/-- What the repointing of a failed task does to the links, where it meets the condition. -/
theorem repoint_links (h : Following w) {previous next : TaskId} {rest : List PlanPromise}
    (hpromises : w.promises = .repointPlan previous next :: rest) {listed : Bool}
    (hwell : w.settlesWell listed = true) :
    Coherent (w.plan.repointPlanTask previous next listed) ∧
      (∀ location, w.linked previous = some location →
        (w.plan.repointPlanTask previous next listed).store.namedAt location = some next) ∧
      ∀ location id, (w.plan.repointPlanTask previous next listed).store.namedAt location =
        some id → id ≠ previous ∧ (id = next ∨ w.plan.store.namedAt location = some id) := by
  have hcondition : (w.linked previous).all (fun location ↦
      listed && decide (PlanStore.assertSafeLocation location = .ok ()) &&
        (w.linked next).isNone) = true := by
    simpa only [RetryDaemon.settlesWell, hpromises] using hwell
  have hne : previous ≠ next := h.forward previous next (by
    rw [hpromises]
    exact List.mem_cons_self)
  rcases Resolver.repointPlanTask_cases h.coherent previous next listed with
    ⟨hrefused, hsame⟩ | ⟨target, hwalk, hothers, htarget⟩
  · have hnone : w.linked previous = none := by
      cases hlinked : w.linked previous with
      | none => rfl
      | some location =>
        rw [hlinked, Option.all_some, Bool.and_eq_true, Bool.and_eq_true] at hcondition
        exact absurd (of_decide_eq_true hcondition.1.2) (hrefused location hlinked)
    have hunnamed :=
      (freshWalk_eq_none_iff h.coherent.healthy h.coherent.once previous).mp hnone
    refine ⟨h.coherent.repointPlanTask ?_, ?_, ?_⟩
    · simp only [Resolver.keepsAnswers, Bool.or_eq_true]
      exact Or.inl (Or.inl (Option.isNone_iff_eq_none.mpr hnone))
    · intro location hlocation
      rw [hnone] at hlocation
      cases hlocation
    · intro location id hid
      rw [hsame] at hid
      refine ⟨?_, Or.inr hid⟩
      rintro rfl
      exact hunnamed location hid
  · have hlinked : w.linked previous = some target := hwalk
    rw [hlinked, Option.all_some, Bool.and_eq_true, Bool.and_eq_true] at hcondition
    have hnamed : w.plan.store.namedAt target = some previous :=
      (freshWalk_eq_some_iff h.coherent.healthy h.coherent.once _ _).mp hwalk
    rw [hcondition.1.1, if_pos rfl] at htarget
    rw [hcondition.1.1] at hothers ⊢
    refine ⟨h.coherent.repointPlanTask ?_, ?_, ?_⟩
    · simp only [Resolver.keepsAnswers, Bool.or_eq_true]
      exact Or.inr hcondition.2
    · intro location hlocation
      rw [hlinked] at hlocation
      cases hlocation
      exact htarget
    · intro location id hid
      by_cases hlocation : location = target
      · rw [hlocation, htarget] at hid
        cases hid
        exact ⟨hne.symm, Or.inl rfl⟩
      · rw [hothers location hlocation] at hid
        refine ⟨?_, Or.inr hid⟩
        rintro rfl
        exact hlocation (h.coherent.once _ _ _ hid hnamed)

theorem settle_repoint (h : Following w) {previous next : TaskId} {rest : List PlanPromise}
    (hpromises : w.promises = .repointPlan previous next :: rest) {listed : Bool}
    (hwell : w.settlesWell listed = true) : Following (w.settle listed) := by
  obtain ⟨hforward, hordered⟩ := h.tail hpromises
  obtain ⟨hcoherent, htarget, hnames⟩ := h.repoint_links hpromises hwell
  let plan := w.plan.repointPlanTask previous next listed
  let link : Repointing := ⟨previous, next, w.linked previous, freshWalk plan.store next,
    freshWalk plan.store previous⟩
  have hsettle : w.settle listed =
      { w with promises := rest, plan := plan, repointings := link :: w.repointings } := by
    unfold RetryDaemon.settle
    rw [hpromises]
  have hleft : freshWalk plan.store previous = none := by
    apply (freshWalk_eq_none_iff hcoherent.healthy hcoherent.once previous).mpr
    intro location hid
    exact (hnames location previous hid).1 rfl
  rw [hsettle]
  refine ⟨hcoherent, hforward, hordered, ?_, ?_⟩
  · intro other hother location hbefore
    rcases List.mem_cons.mp hother with heq | hother
    · rw [heq] at hbefore ⊢
      refine ⟨?_, hleft⟩
      exact (freshWalk_eq_some_iff hcoherent.healthy hcoherent.once next location).mpr
        (htarget location hbefore)
    · exact h.moved other hother location hbefore
  · intro entry hentry
    by_cases hown : .repointPlan entry.failed entry.retry = PlanPromise.repointPlan previous next
    · obtain ⟨hfailed, hretry⟩ := PlanPromise.repointPlan.inj hown
      refine Or.inr ⟨⟨link, List.mem_cons_self, hfailed.symm, hretry.symm⟩, ?_⟩
      intro location hid
      exact (hnames location _ hid).1 hfailed
    · rcases h.settled entry hentry with hwaiting | ⟨⟨found, hfound, hpair⟩, hunlinked⟩
      · left
        rw [hpromises] at hwaiting
        rcases List.mem_cons.mp hwaiting with heq | hwaiting
        · exact absurd heq hown
        · exact hwaiting
      · by_cases hnext : entry.failed = next
        · -- the promise that links the plan further still waits
          exact Or.inl (h.ordered [] previous next rest hpromises entry hentry hnext)
        · refine Or.inr ⟨⟨found, List.mem_cons_of_mem _ hfound, hpair⟩, ?_⟩
          intro location hid
          rcases (hnames location _ hid).2 with heq | hbefore
          · exact hnext heq
          · exact hunlinked location hbefore

theorem settle (h : Following w) {listed : Bool} (hwell : w.settlesWell listed = true) :
    Following (w.settle listed) := by
  cases hpromises : w.promises with
  | nil =>
    have hsame : w.settle listed = w := by
      unfold RetryDaemon.settle
      rw [hpromises]
    rw [hsame]
    exact h
  | cons promise rest =>
    cases promise with
    | syncPlan id => exact h.settle_sync hpromises hwell
    | repointPlan previous next => exact h.settle_repoint hpromises hwell

end Following

/-! ## Runs -/

/-- What every sound step keeps. -/
structure Chained (w : RetryDaemon) : Prop where
  retired : Retired w
  recorded : Recorded w
  following : Following w
  alike : ∀ entry ∈ w.log, entry.repeated = entry.asked

/-- A retry clones every column a run reads but those of the keys. -/
theorem retryOf_alike (w : RetryDaemon) (id : TaskId) (row : TaskRow)
    (hkeys : (w.retryOf id row).asked.keys = { projectId := row.keys.projectId }) :
    (w.retryOf id row).repeated = (w.retryOf id row).asked := by
  have hrepeated : (w.retryOf id row).repeated =
      { (w.retryOf id row).asked with keys := { projectId := row.keys.projectId } } := rfl
  rw [hrepeated, ← hkeys]

theorem Chained.advance {w : RetryDaemon} (h : Chained w) {event : TaskExecutor.Event}
    {fresh : TaskId → TaskColumns} (hsound : w.sound (.daemon event fresh) = true) :
    Chained (w.advance event fresh) := by
  simp only [RetryDaemon.sound, Bool.and_eq_true] at hsound
  obtain ⟨⟨hfree, hunkeyed⟩, hboot⟩ := hsound
  refine ⟨h.retired.advance hfree fresh, h.recorded.advance fresh,
    h.following.advance h.retired hboot fresh, ?_⟩
  intro entry hentry
  unfold RetryDaemon.retriesUnkeyed at hunkeyed
  cases hretried : w.daemon.retried event with
  | none =>
    simp only [RetryDaemon.advance, hretried] at hentry
    exact h.alike entry hentry
  | some failed =>
    obtain ⟨id, row⟩ := failed
    simp only [RetryDaemon.advance, hretried] at hentry
    rcases List.mem_cons.mp hentry with heq | hentry
    · rw [hretried, Option.all_some] at hunkeyed
      rw [heq]
      exact retryOf_alike w id row (of_decide_eq_true hunkeyed)
    · exact h.alike entry hentry

theorem Retired.of_same {w w' : RetryDaemon} (h : Retired w) (hdaemon : w'.daemon = w.daemon)
    (hlog : w'.log = w.log) : Retired w' := by
  obtain ⟨hsingle, honce, hissued, hunclaimed, hover⟩ := h
  rw [← hdaemon] at hsingle hissued hunclaimed hover
  rw [← hlog] at honce hissued hunclaimed hover
  exact ⟨hsingle, honce, hissued, hunclaimed, hover⟩

theorem Recorded.of_same {w w' : RetryDaemon} (h : Recorded w) (hdaemon : w'.daemon = w.daemon)
    (hlog : w'.log = w.log) (hinserted : w'.inserted = w.inserted) : Recorded w' := by
  obtain ⟨horigins, hissued, hcounted⟩ := h
  rw [← hdaemon] at horigins hissued
  rw [← hinserted] at horigins hissued hcounted
  rw [← hlog] at hcounted
  exact ⟨horigins, hissued, hcounted⟩

/-- The step lemma. -/
theorem Chained.step {w : RetryDaemon} (h : Chained w) (event : RetryEvent)
    (hsound : w.sound event = true) : Chained (w.step event) := by
  cases event with
  | daemon event fresh => exact h.advance hsound
  | patch id permissionMode =>
    have hfollowing := h.following
    exact ⟨h.retired.of_same rfl rfl, h.recorded.of_same rfl rfl rfl,
      ⟨hfollowing.coherent, hfollowing.forward, hfollowing.ordered, hfollowing.moved,
        hfollowing.settled⟩, h.alike⟩
  | plan event =>
    obtain ⟨hkeeps, hgives⟩ := Bool.and_eq_true_iff.mp hsound
    exact ⟨h.retired.of_same rfl rfl, h.recorded.of_same rfl rfl rfl,
      h.following.plan hkeeps hgives, h.alike⟩
  | settle listed =>
    have hsame : (w.settle listed).daemon = w.daemon ∧ (w.settle listed).log = w.log ∧
        (w.settle listed).inserted = w.inserted := by
      unfold RetryDaemon.settle
      split <;> exact ⟨rfl, rfl, rfl⟩
    obtain ⟨hdaemon, hlog, hinserted⟩ := hsame
    refine ⟨h.retired.of_same hdaemon hlog, h.recorded.of_same hdaemon hlog hinserted,
      h.following.settle hsound, ?_⟩
    intro entry hentry
    exact h.alike entry (hlog ▸ hentry)

theorem Chained.sound {w : RetryDaemon} (h : Chained w) : RetriesSound w where
  once := h.retired.once
  bounded id row hrow _ := retriesBelow_bounded h.recorded.counted h.retired.once hrow
  alike := h.alike
  moved := h.following.moved
  repointed entry hentry := by
    rcases h.following.settled entry hentry with hwaiting | ⟨hlink, hunlinked⟩
    · exact Or.inl hwaiting
    · have hcoherent := h.following.coherent
      exact Or.inr ⟨hlink,
        (freshWalk_eq_none_iff hcoherent.healthy hcoherent.once entry.failed).mpr hunlinked⟩

section Runs

variable (ai : AiTables) (overBudget : List (Option ProjectId)) (maxConcurrentPerKey : ℕ)

theorem fresh_chained (plan : Resolver) (hcoherent : Coherent plan) :
    Chained (RetryDaemon.fresh ai overBudget maxConcurrentPerKey plan) where
  retired := by
    refine ⟨Multiset.nodup_zero, List.nodup_nil, ?_, ?_, ?_⟩ <;> intro id hid <;> cases hid
  recorded := by
    refine ⟨?_, ?_, ?_⟩
    · intro id row hrow
      cases hrow
    · intro id row hrow
      cases hrow
    · intro entry hentry
      cases hentry
  following := by
    refine ⟨hcoherent, ?_, ?_, ?_, ?_⟩
    · intro previous next hpromise
      cases hpromise
    · intro before previous next after _ entry hentry
      cases hentry
    · intro link hlink
      cases hlink
    · intro entry hentry
      cases hentry
  alike entry hentry := by cases hentry

/-- In a sound run from an empty tasks table, over healthy plan trees that name every task once,
automatic retries are a bounded chain of the same run, and the plan follows it. -/
theorem retries_chain (plan : Resolver) (hhealthy : plan.store.IsHealthy)
    (honce : NamesOnce plan.store) (hcache : plan.planTaskByExecutionCache = JsMap.empty)
    (events : List RetryEvent)
    (hevents : Disciplined RetryDaemon.step (fun w event ↦ w.sound event = true)
      (RetryDaemon.fresh ai overBudget maxConcurrentPerKey plan) events) :
    RetriesSound (run RetryDaemon.step
      (RetryDaemon.fresh ai overBudget maxConcurrentPerKey plan) events) := by
  have hcoherent : Coherent plan := by
    refine ⟨hhealthy, honce, ?_⟩
    intro id value hvalue
    rw [Resolver.cached, hcache] at hvalue
    cases hvalue
  have hreached : Chained (run RetryDaemon.step
      (RetryDaemon.fresh ai overBudget maxConcurrentPerKey plan) events) :=
    run_invariant (fun _ event h hsound ↦ h.step event hsound)
      (fresh_chained ai overBudget maxConcurrentPerKey plan hcoherent) events hevents
  exact hreached.sound

end Runs

/-! ## A plan task that is retried -/

/-- One key, capacity 5, and the project of `appResolver`, whose plan task `01-do` names task 1. -/
def appDaemon : RetryDaemon :=
  RetryDaemon.fresh { keys := [{ id := 1 }, { id := 2 }] } [] 5 appResolver

/-- Task `id` is the only call in flight; it gets its key, its context and its session, and the
session fails. -/
def failingRun : List RetryEvent :=
  [.daemon (.resume 0) (fun _ ↦ {}), .daemon (.resume 0) (fun _ ↦ {}),
    .daemon (.contextBuilt 0 (some {})) (fun _ ↦ {}),
    .daemon (.sessionEnded 0 (.error {})) (fun _ ↦ {}), .daemon (.resume 0) (fun _ ↦ {})]

/-- A task with one retry fails, and so does its retry. -/
def failedTwice (task : Daemon.NewTask) : List RetryEvent :=
  .daemon (.post task) (fun _ ↦ { prompt := some "Do it." }) :: failingRun ++
    [.settle true, .settle true, .daemon (.retryFired 0) (fun _ ↦ {})] ++ failingRun ++
    [.settle true]

theorem retries_chain_failedTwice :
    RetriesSound (run RetryDaemon.step appDaemon (failedTwice { maxRetries := some 1 })) :=
  retries_chain _ _ _ appResolver appResolver_healthy appResolver_namesOnce rfl _
    (by decide +kernel)

/-- The same with a task that was pinned to key 2. -/
def pinnedTask : Daemon.NewTask := { keys := { assignedKeyId := some 2 }, maxRetries := some 1 }

/-- Boot resumes the milestone of task 1 and then executes the ids of the stale reset; both sessions
fail. -/
def bootedTwice : List RetryEvent :=
  [.daemon (.post { maxRetries := some 1 }) (fun _ ↦ {}), .daemon (.resume 0) (fun _ ↦ {}),
    .daemon (.resume 0) (fun _ ↦ {}), .daemon (.contextBuilt 0 (some {})) (fun _ ↦ {}),
    .daemon (.boot [] [⟨some 1, {}⟩]) (fun _ ↦ {}), .daemon (.resume 0) (fun _ ↦ {}),
    .daemon (.resume 0) (fun _ ↦ {}), .daemon (.resume 0) (fun _ ↦ {}),
    .daemon (.resume 0) (fun _ ↦ {}), .daemon (.contextBuilt 0 (some {})) (fun _ ↦ {}),
    .daemon (.contextBuilt 0 (some {})) (fun _ ↦ {}),
    .daemon (.sessionEnded 0 (.error {})) (fun _ ↦ {}),
    .daemon (.sessionEnded 0 (.error {})) (fun _ ↦ {})]

/-- The retry of a pinned task asks for any key, and a task that boot executes twice is retried
twice, which is once more than its budget. -/
theorem not_retries_chain :
    ¬RetriesSound (run RetryDaemon.step appDaemon (failedTwice pinnedTask)) ∧
      ¬RetriesSound (run RetryDaemon.step appDaemon bootedTwice) := by
  refine ⟨?_, ?_⟩
  · intro h
    have hunlike : (run RetryDaemon.step appDaemon (failedTwice pinnedTask)).log.any
        (fun entry ↦ entry.repeated != entry.asked) = true := by decide +kernel
    obtain ⟨entry, hentry, hne⟩ := List.any_eq_true.mp hunlike
    exact bne_iff_ne.mp hne (h.alike entry hentry)
  · intro h
    have htwice : (run RetryDaemon.step appDaemon bootedTwice).log.map Retry.failed = [1, 1] := by
      decide +kernel
    have honce := h.once
    rw [htwice] at honce
    exact absurd honce (by decide)

end Flockctl.Retries
