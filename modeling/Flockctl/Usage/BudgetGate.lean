import Flockctl.Usage.Budget
import Mathlib.Algebra.Order.BigOperators.Group.List
import Mathlib.Data.List.Nodup

/-!
# What the budget gate lets through

A project is blocked when a limit that pauses and covers the project is reached by what has been
spent under it in the current period. The gate checks this, with one exception: a limit of a project
or of a workspace that names none is taken for a global one when the task has no project, or a
project without a workspace.
-/

namespace Flockctl.Usage.Budget

open Calendar

/-- What belongs to this project, or to none, falls under the limit. -/
def Covers (db : Database) (limit : BudgetLimit) (projectId : Option ℕ) : Prop :=
  match limit.scope with
  | .global => True
  | .project => projectId ≠ none ∧ limit.scopeId = projectId
  | .workspace =>
    ∃ project ∈ db.projects, projectId = some project.id ∧ project.workspaceId ≠ none ∧
      limit.scopeId = project.workspaceId

instance (db : Database) (limit : BudgetLimit) (projectId : Option ℕ) :
    Decidable (Covers db limit projectId) := by
  unfold Covers
  cases limit.scope <;> infer_instance

/-- The instant lies in the current period. -/
def InPeriod (now : Instant) (period : BudgetPeriod) (instant : Instant) : Prop :=
  match period with
  | .daily => instant.date = now.date
  | .monthly => instant.year = now.year ∧ instant.month = now.month
  | .total => True

instance (now : Instant) (period : BudgetPeriod) (instant : Instant) :
    Decidable (InPeriod now period instant) := by
  unfold InPeriod
  cases period <;> infer_instance

/-- What has been spent under the limit in the current period. -/
def spentUnder (db : Database) (limit : BudgetLimit) : ℚ :=
  sumCosts (db.usageRecords.filter fun record ↦
    Covers db limit record.projectId ∧ InPeriod db.now limit.period record.createdAt)

/-- What has been spent by anyone in the current period of the limit. -/
def spentByAll (db : Database) (limit : BudgetLimit) : ℚ :=
  sumCosts (db.usageRecords.filter fun record ↦ InPeriod db.now limit.period record.createdAt)

def Pauses (limit : BudgetLimit) : Prop :=
  limit.isActive = true ∧ limit.action.getD .pause = .pause

/-- A limit that pauses, covers the project and is reached. -/
def IsReached (db : Database) (projectId : Option ℕ) : Prop :=
  ∃ limit ∈ db.budgetLimits, Pauses limit ∧ Covers db limit projectId ∧
    limit.limitUsd ≤ spentUnder db limit

/-- A limit of a project or a workspace that names none, for a task that has none. -/
def IsStray (db : Database) (limit : BudgetLimit) (projectId : Option ℕ) : Prop :=
  limit.scopeId = none ∧
    match limit.scope with
    | .global => False
    | .project => projectId = none
    | .workspace => ∀ project ∈ db.projects, projectId = some project.id →
        project.workspaceId = none

/-- A later state with one more usage record, on the same day. -/
structure Follows (db next : Database) (record : UsageRecord) : Prop where
  projects : next.projects = db.projects
  budgetLimits : next.budgetLimits = db.budgetLimits
  usageRecords : next.usageRecords = db.usageRecords ++ [record]
  sameDay : next.now.date = db.now.date

/-- The gate blocks what it is to block, agrees with the summary, and stays closed. -/
structure GateIsExact (db : Database) (projectId : Option ℕ) : Prop where
  blocks_iff : (checkBudget db projectId).allowed = false ↔ IsReached db projectId
  agrees : ∀ exceeded ∈ (checkBudget db projectId).exceededLimits,
    (∃ line ∈ getBudgetSummary db, line.id = exceeded.id) ∧
      ∀ line ∈ getBudgetSummary db, line.id = exceeded.id →
        line.spentUsd = round (exceeded.spentUsd * 1000000) / 1000000
  own : ∀ exceeded ∈ (checkBudget db projectId).exceededLimits, ∀ limit ∈ db.budgetLimits,
    limit.id = exceeded.id → limit.scopeId ≠ none → Covers db limit projectId
  keeps : (checkBudget db projectId).allowed = false → ∀ next record, Follows db next record →
    (checkBudget next projectId).allowed = false

/-! ## The start of the period -/

def startOfDay (now : Instant) : Instant :=
  { now with
    hour := 0
    minute := 0
    second := 0
    milli := 0
    inHours := by decide
    inMinutes := by decide
    inSeconds := by decide
    inMillis := by decide }

def startOfMonth (now : Instant) : Instant :=
  { startOfDay now with
    day := 1
    inDays := by decide }

theorem dateText_startOfDay (now : Instant) : (startOfDay now).dateText = now.dateText := rfl

theorem timeText_startOfDay (now : Instant) : (startOfDay now).timeText = "00:00:00".toList := by
  have hzeros : rendered Instant.timeShape [0, 0, 0] = "00:00:00".toList := by decide
  exact hzeros

theorem getPeriodStart_daily (now : Instant) :
    getPeriodStart now .daily = some (startOfDay now).sqliteText := by
  have hlength : now.dateText.length = 10 := by
    simp [Instant.dateText, Instant.dateShape, Instant.date, rendered]
  have htake : now.isoText.take 10 = now.dateText := by
    rw [Instant.isoText, List.take_append_of_le_length hlength.ge, List.take_of_length_le hlength.le]
  rw [getPeriodStart, htake, Instant.sqliteText, timeText_startOfDay, dateText_startOfDay]
  rfl

theorem getPeriodStart_monthly (now : Instant) :
    getPeriodStart now .monthly = some (startOfMonth now).sqliteText := by
  have htime : (startOfMonth now).timeText = "00:00:00".toList := timeText_startOfDay now
  have hday : fixed 2 1 = ['0', '1'] := by decide
  rw [getPeriodStart, Instant.sqliteText, htime]
  simp [Instant.dateText, Instant.dateShape, Instant.date, rendered, startOfMonth, startOfDay, hday]

/-- A time of day is not before its start. -/
theorem not_time_lt_start (instant : Instant) : ¬instant.time < [0, 0, 0] := by
  simp [Instant.time, List.cons_lt_cons_iff]

theorem not_date_lt_of_past {now instant : Instant} (h : ¬now.Before instant) :
    ¬now.date < instant.date := by
  intro hless
  apply h
  rw [Instant.Before, append_lt_append_iff (Instant.length_date now instant)]
  exact Or.inl hless

/-- Of what is past, the comparison of the texts keeps what is in the period. -/
theorem isSince_iff {db : Database} {record : UsageRecord} (h : record ∈ db.usageRecords)
    (period : BudgetPeriod) :
    isSince (getPeriodStart db.now period) record = true ↔
      InPeriod db.now period record.createdAt := by
  have hpast := not_date_lt_of_past (db.past record h)
  cases period with
  | total => exact iff_of_true rfl trivial
  | daily =>
    have hstart : (startOfDay db.now).date = db.now.date := rfl
    have htime : (startOfDay db.now).time = [0, 0, 0] := rfl
    rw [getPeriodStart_daily, isSince, Bool.not_eq_true', decide_eq_false_iff_not,
      Instant.sqliteText_lt_iff, hstart, htime,
      append_lt_append_iff (Instant.length_date record.createdAt db.now)]
    have hnot := not_time_lt_start record.createdAt
    rcases lt_trichotomy record.createdAt.date db.now.date with hless | hsame | hmore
    · exact iff_of_false (fun h ↦ h (Or.inl hless)) hless.ne
    · refine iff_of_true ?_ hsame
      rintro (hless | ⟨-, hless⟩)
      · exact absurd hsame hless.ne
      · exact hnot hless
    · exact absurd hmore hpast
  | monthly =>
    have hstart : (startOfMonth db.now).date = [db.now.year, db.now.month, 1] := rfl
    have htime : (startOfMonth db.now).time = [0, 0, 0] := rfl
    have hfirst := record.createdAt.inDays.1
    have hnot := not_time_lt_start record.createdAt
    have hnil : ¬([] : List ℕ) < [] := Instant.not_lt_self []
    rw [getPeriodStart_monthly, isSince, Bool.not_eq_true', decide_eq_false_iff_not,
      Instant.sqliteText_lt_iff,
      append_lt_append_iff (Instant.length_date record.createdAt (startOfMonth db.now)), hstart,
      htime]
    simp only [hnot, and_false, or_false, Instant.date, List.cons_lt_cons_iff, hnil, InPeriod]
      at hpast ⊢
    omega

/-! ## The limits that are checked -/

theorem find?_project {db : Database} {project : Project} (h : project ∈ db.projects) :
    db.projects.find? (·.id == project.id) = some project := by
  cases hfind : db.projects.find? (·.id == project.id) with
  | none =>
    rw [List.find?_eq_none] at hfind
    exact absurd (beq_self_eq_true project.id) (hfind project h)
  | some found =>
    have hid : found.id = project.id := by simpa using List.find?_some hfind
    have hmem := List.mem_of_find?_eq_some hfind
    rw [List.inj_on_of_nodup_map db.projectIds hmem h hid]

theorem projectWorkspaceId_eq_some_iff (db : Database) (projectId : Option ℕ) (id : ℕ) :
    projectWorkspaceId db projectId = some id ↔
      ∃ project ∈ db.projects, projectId = some project.id ∧ project.workspaceId = some id := by
  constructor
  · intro h
    unfold projectWorkspaceId at h
    split at h
    · cases h
    · cases h
    · rename_i given _
      obtain ⟨project, hfind, hworkspace⟩ := Option.bind_eq_some_iff.mp h
      have hid : project.id = given := by simpa using List.find?_some hfind
      exact ⟨project, List.mem_of_find?_eq_some hfind, by rw [hid], hworkspace⟩
  · rintro ⟨project, hmem, rfl, hworkspace⟩
    have hpositive := db.positive project hmem
    have hfind := find?_project hmem
    unfold projectWorkspaceId
    split
    · rename_i hnone
      cases hnone
    · rename_i hzero
      have hid := Option.some.inj hzero
      omega
    · rename_i given _ hgiven
      rw [← Option.some.inj hgiven, hfind, Option.bind_some, hworkspace]

theorem projectWorkspaceId_eq_none_iff (db : Database) (projectId : Option ℕ) :
    projectWorkspaceId db projectId = none ↔
      ∀ project ∈ db.projects, projectId = some project.id → project.workspaceId = none := by
  constructor
  · intro h project hmem hid
    rw [Option.eq_none_iff_forall_ne_some]
    intro id hworkspace
    have hsome := (projectWorkspaceId_eq_some_iff db projectId id).mpr ⟨project, hmem, hid, hworkspace⟩
    rw [h] at hsome
    cases hsome
  · intro h
    rw [Option.eq_none_iff_forall_ne_some]
    intro id hsome
    obtain ⟨project, hmem, hid, hworkspace⟩ :=
      (projectWorkspaceId_eq_some_iff db projectId id).mp hsome
    rw [h project hmem hid] at hworkspace
    cases hworkspace

/-- A limit of a workspace covers the projects of that. -/
theorem covers_workspace_iff {db : Database} {limit : BudgetLimit} (h : limit.scope = .workspace)
    (projectId : Option ℕ) :
    Covers db limit projectId ↔
      ∃ id, limit.scopeId = some id ∧ projectWorkspaceId db projectId = some id := by
  simp only [Covers, h, projectWorkspaceId_eq_some_iff]
  constructor
  · rintro ⟨project, hmem, hid, hworkspace, hscope⟩
    obtain ⟨id, hsome⟩ := Option.ne_none_iff_exists'.mp hworkspace
    exact ⟨id, hscope.trans hsome, project, hmem, hid, hsome⟩
  · rintro ⟨id, hscope, project, hmem, hid, hworkspace⟩
    exact ⟨project, hmem, hid, by simp [hworkspace], hscope.trans hworkspace.symm⟩

theorem isChecked_iff (db : Database) (projectId : Option ℕ) (limit : BudgetLimit) :
    isChecked db projectId limit = true ↔
      Covers db limit projectId ∨ IsStray db limit projectId := by
  cases hscope : limit.scope with
  | global =>
    have hcovers : Covers db limit projectId := by simp [Covers, hscope]
    exact iff_of_true (by simp [isChecked, hscope]) (Or.inl hcovers)
  | project =>
    have hchecked : isChecked db projectId limit = true ↔ limit.scopeId = projectId := by
      simp [isChecked, hscope]
    rw [hchecked]
    simp only [Covers, IsStray, hscope]
    cases projectId with
    | none => simp
    | some id => simp
  | workspace =>
    have hchecked : isChecked db projectId limit = true ↔
        projectWorkspaceId db projectId = limit.scopeId := by
      simp [isChecked, hscope]
    rw [hchecked, covers_workspace_iff hscope]
    simp only [IsStray, hscope, ← projectWorkspaceId_eq_none_iff]
    cases limit.scopeId with
    | none => simp
    | some id => simp

theorem sumCosts_filter_congr {records : List UsageRecord} {takes others : UsageRecord → Bool}
    (h : ∀ record ∈ records, takes record = others record) :
    sumCosts (records.filter takes) = sumCosts (records.filter others) := by
  rw [List.filter_congr h]

theorem isSince_eq {db : Database} {record : UsageRecord} (h : record ∈ db.usageRecords)
    (period : BudgetPeriod) :
    isSince (getPeriodStart db.now period) record =
      decide (InPeriod db.now period record.createdAt) := by
  rw [Bool.eq_iff_iff, isSince_iff h, decide_eq_true_iff]

/-- What a limit counts since the start of its period. -/
theorem sumCosts_since (db : Database) (limit : BudgetLimit) {takes : UsageRecord → Bool}
    {Taken : UsageRecord → Prop} [DecidablePred Taken]
    (h : ∀ record, takes record = true ↔ Taken record) :
    sumCosts ((db.usageRecords.filter (isSince (getPeriodStart db.now limit.period))).filter takes) =
      sumCosts (db.usageRecords.filter fun record ↦
        Taken record ∧ InPeriod db.now limit.period record.createdAt) := by
  rw [List.filter_filter]
  apply sumCosts_filter_congr
  intro record hrecord
  rw [isSince_eq hrecord, Bool.eq_iff_iff, Bool.and_eq_true, h, decide_eq_true_iff,
    decide_eq_true_iff]

/-- The records of the projects of a workspace. -/
theorem takes_workspace_iff (db : Database) {limit : BudgetLimit} {id : ℕ}
    (hscope : limit.scope = .workspace) (hid : limit.scopeId = some id) (record : UsageRecord) :
    (match record.projectId with
      | none => false
      | some project =>
        ((db.projects.filter (·.workspaceId == some id)).map Project.id).contains project) = true ↔
      Covers db limit record.projectId := by
  simp only [Covers, hscope, hid]
  cases record.projectId with
  | none => simp
  | some given =>
    simp only [List.contains_iff_mem, List.mem_map, List.mem_filter, beq_iff_eq]
    constructor
    · rintro ⟨project, ⟨hmem, hworkspace⟩, rfl⟩
      exact ⟨project, hmem, rfl, by simp [hworkspace], hworkspace.symm⟩
    · rintro ⟨project, hmem, hgiven, -, hworkspace⟩
      exact ⟨project, ⟨hmem, hworkspace.symm⟩, (Option.some.inj hgiven).symm⟩

/-- A limit that covers something adds up what falls under it. -/
theorem spent_of_scopeId {db : Database} {limit : BudgetLimit}
    (h : limit.scope = .global ∨ limit.scopeId ≠ none) (workspaceIds : List ℕ) :
    getSpentForPeriod db limit.scope limit.scopeId limit.period
      (projectIdsByWorkspace db workspaceIds) = spentUnder db limit := by
  cases hscope : limit.scope with
  | global =>
    have hspent : getSpentForPeriod db .global limit.scopeId limit.period
        (projectIdsByWorkspace db workspaceIds) =
          sumCosts (db.usageRecords.filter (isSince (getPeriodStart db.now limit.period))) := by
      cases limit.scopeId <;> rfl
    rw [hspent]
    apply sumCosts_filter_congr
    intro record hrecord
    rw [isSince_eq hrecord]
    simp [Covers, hscope]
  | project =>
    obtain ⟨id, hid⟩ := Option.ne_none_iff_exists'.mp (h.resolve_left (by simp [hscope]))
    rw [hid]
    apply sumCosts_since db limit
    intro record
    simp only [Covers, hscope, hid, beq_iff_eq]
    cases record.projectId with
    | none => simp
    | some given => simp [eq_comm]
  | workspace =>
    obtain ⟨id, hid⟩ := Option.ne_none_iff_exists'.mp (h.resolve_left (by simp [hscope]))
    have hsum := sumCosts_since db limit (takes_workspace_iff db hscope hid)
    rw [hid]
    simp only [getSpentForPeriod, getD_projectIdsByWorkspace]
    split
    · rename_i hnone
      rw [spentUnder, ← hsum, hnone, List.filter_eq_nil_iff.mpr]
      · rfl
      · intro record _
        cases record.projectId <;> simp
    · exact hsum

theorem spent_of_stray {db : Database} {limit : BudgetLimit} {projectId : Option ℕ}
    (h : IsStray db limit projectId) (workspaceIds : List ℕ) :
    getSpentForPeriod db limit.scope limit.scopeId limit.period
      (projectIdsByWorkspace db workspaceIds) = spentByAll db limit := by
  obtain ⟨hid, hscope⟩ := h
  rw [hid]
  cases hscope : limit.scope with
  | global => simp [hscope] at *
  | project =>
    exact sumCosts_filter_congr fun record hrecord ↦ isSince_eq hrecord limit.period
  | workspace =>
    exact sumCosts_filter_congr fun record hrecord ↦ isSince_eq hrecord limit.period

/-! ## The gate -/

/-- What the gate counts for a limit. -/
def counted (db : Database) (limit : BudgetLimit) : ℚ :=
  getSpentForPeriod db limit.scope limit.scopeId limit.period (projectIdsByWorkspace db [])

/-- What the gate reports of a limit. -/
def report (db : Database) (limit : BudgetLimit) : ExceededLimit where
  id := limit.id
  scope := limit.scope
  period := limit.period
  limitUsd := limit.limitUsd
  spentUsd := counted db limit
  action := limit.action.getD .pause

theorem mem_activeLimits {db : Database} {limit : BudgetLimit} :
    limit ∈ activeLimits db ↔ limit ∈ db.budgetLimits ∧ limit.isActive = true := List.mem_filter

/-- The limits that the gate reports. -/
theorem mem_exceededLimits {db : Database} {projectId : Option ℕ} {exceeded : ExceededLimit} :
    exceeded ∈ (checkBudget db projectId).exceededLimits ↔
      ∃ limit ∈ activeLimits db, isChecked db projectId limit = true ∧
        limit.limitUsd ≤ counted db limit ∧ report db limit = exceeded := by
  rw [checkBudget, List.mem_filterMap]
  simp only [counted, report, getSpentForPeriod_eq db _ _ _ _ []]
  constructor
  · rintro ⟨limit, hmem, hreport⟩
    split at hreport
    · rename_i hchecked
      split at hreport
      · rename_i hreached
        exact ⟨limit, hmem, hchecked, hreached, Option.some.inj hreport⟩
      · cases hreport
    · cases hreport
  · rintro ⟨limit, hmem, hchecked, hreached, rfl⟩
    exact ⟨limit, hmem, by rw [if_pos hchecked, if_pos hreached]⟩

theorem allowed_eq_false_iff (db : Database) (projectId : Option ℕ) :
    (checkBudget db projectId).allowed = false ↔
      ∃ limit ∈ activeLimits db, isChecked db projectId limit = true ∧
        limit.limitUsd ≤ counted db limit ∧ limit.action.getD .pause = .pause := by
  have hallowed : (checkBudget db projectId).allowed =
      ((checkBudget db projectId).exceededLimits.filter (·.action == .pause)).isEmpty := rfl
  rw [hallowed, List.isEmpty_eq_false_iff_exists_mem]
  simp only [List.mem_filter, mem_exceededLimits, beq_iff_eq]
  constructor
  · rintro ⟨exceeded, ⟨limit, hmem, hchecked, hreached, rfl⟩, haction⟩
    exact ⟨limit, hmem, hchecked, hreached, haction⟩
  · rintro ⟨limit, hmem, hchecked, hreached, haction⟩
    exact ⟨report db limit, ⟨limit, hmem, hchecked, hreached, rfl⟩, haction⟩

theorem counted_of_covers {db : Database} {limit : BudgetLimit} {projectId : Option ℕ}
    (h : Covers db limit projectId) : counted db limit = spentUnder db limit := by
  apply spent_of_scopeId
  cases hscope : limit.scope with
  | global => exact Or.inl rfl
  | project =>
    right
    simp only [Covers, hscope] at h
    rw [h.2]
    exact h.1
  | workspace =>
    right
    simp only [Covers, hscope] at h
    obtain ⟨project, -, -, hworkspace, hid⟩ := h
    rwa [hid]

/-- A limit that pauses, names no project or workspace, is taken for the task's own and is
reached. -/
def IsStrayReached (db : Database) (projectId : Option ℕ) : Prop :=
  ∃ limit ∈ db.budgetLimits, Pauses limit ∧ IsStray db limit projectId ∧
    limit.limitUsd ≤ spentByAll db limit

/-- The gate blocks for the limits that cover the project, and for the stray ones. -/
theorem blocks_iff_or (db : Database) (projectId : Option ℕ) :
    (checkBudget db projectId).allowed = false ↔
      IsReached db projectId ∨ IsStrayReached db projectId := by
  rw [allowed_eq_false_iff]
  constructor
  · rintro ⟨limit, hmem, hchecked, hreached, haction⟩
    obtain ⟨hlimit, hactive⟩ := mem_activeLimits.mp hmem
    rcases (isChecked_iff db projectId limit).mp hchecked with hcovers | hstray
    · rw [counted_of_covers hcovers] at hreached
      exact Or.inl ⟨limit, hlimit, ⟨hactive, haction⟩, hcovers, hreached⟩
    · rw [counted, spent_of_stray hstray] at hreached
      exact Or.inr ⟨limit, hlimit, ⟨hactive, haction⟩, hstray, hreached⟩
  · rintro (⟨limit, hlimit, ⟨hactive, haction⟩, hcovers, hreached⟩ |
      ⟨limit, hlimit, ⟨hactive, haction⟩, hstray, hreached⟩)
    · refine ⟨limit, mem_activeLimits.mpr ⟨hlimit, hactive⟩,
        (isChecked_iff db projectId limit).mpr (Or.inl hcovers), ?_, haction⟩
      rwa [counted_of_covers hcovers]
    · refine ⟨limit, mem_activeLimits.mpr ⟨hlimit, hactive⟩,
        (isChecked_iff db projectId limit).mpr (Or.inr hstray), ?_, haction⟩
      rwa [counted, spent_of_stray hstray]

/-! ## One more record -/

theorem sumCosts_append (records others : List UsageRecord) :
    sumCosts (records ++ others) = sumCosts records + sumCosts others := by
  rw [sumCosts, List.filterMap_append, List.sum_append]
  rfl

theorem sumCosts_nonneg (records : List UsageRecord) : 0 ≤ sumCosts records := by
  apply List.sum_nonneg
  intro cost hcost
  obtain ⟨record, -, hrecord⟩ := List.mem_filterMap.mp hcost
  exact record.isCost cost hrecord

theorem sumCosts_filter_le_append (records : List UsageRecord) (record : UsageRecord)
    (takes : UsageRecord → Bool) :
    sumCosts (records.filter takes) ≤ sumCosts ((records ++ [record]).filter takes) := by
  rw [List.filter_append, sumCosts_append]
  have hmore := sumCosts_nonneg ([record].filter takes)
  linarith

section

variable {db next : Database} {record : UsageRecord} (h : Follows db next record)

include h

theorem Follows.covers_iff (limit : BudgetLimit) (projectId : Option ℕ) :
    Covers next limit projectId ↔ Covers db limit projectId := by
  simp only [Covers, h.projects]

theorem Follows.inPeriod_iff (period : BudgetPeriod) (instant : Instant) :
    InPeriod next.now period instant ↔ InPeriod db.now period instant := by
  have hday := h.sameDay
  simp only [Instant.date, List.cons_eq_cons] at hday
  simp only [InPeriod, h.sameDay, hday.1, hday.2.1]

theorem Follows.spentUnder_le (limit : BudgetLimit) :
    spentUnder db limit ≤ spentUnder next limit := by
  simp only [spentUnder, h.usageRecords, h.covers_iff, h.inPeriod_iff]
  exact sumCosts_filter_le_append _ _ _

theorem Follows.spentByAll_le (limit : BudgetLimit) :
    spentByAll db limit ≤ spentByAll next limit := by
  simp only [spentByAll, h.usageRecords, h.inPeriod_iff]
  exact sumCosts_filter_le_append _ _ _

/-- Spending more opens nothing. -/
theorem Follows.blocks {projectId : Option ℕ} (hblocked : (checkBudget db projectId).allowed = false) :
    (checkBudget next projectId).allowed = false := by
  rw [blocks_iff_or] at hblocked ⊢
  rcases hblocked with ⟨limit, hlimit, hpauses, hcovers, hreached⟩ |
    ⟨limit, hlimit, hpauses, hstray, hreached⟩
  · left
    refine ⟨limit, h.budgetLimits ▸ hlimit, hpauses, (h.covers_iff limit projectId).mpr hcovers, ?_⟩
    exact hreached.trans (h.spentUnder_le limit)
  · right
    refine ⟨limit, h.budgetLimits ▸ hlimit, hpauses, ?_, hreached.trans (h.spentByAll_le limit)⟩
    simpa only [IsStray, h.projects] using hstray

end

/-- The gate does what it is to do unless a stray limit alone blocks. -/
theorem gateIsExact_iff (db : Database) (projectId : Option ℕ) :
    GateIsExact db projectId ↔ (IsStrayReached db projectId → IsReached db projectId) := by
  constructor
  · intro hexact hstray
    exact hexact.blocks_iff.mp ((blocks_iff_or db projectId).mpr (Or.inr hstray))
  · intro hcondition
    constructor
    · rw [blocks_iff_or]
      exact or_iff_left_of_imp hcondition
    · intro exceeded hexceeded
      obtain ⟨limit, hmem, -, -, rfl⟩ := mem_exceededLimits.mp hexceeded
      simp only [getBudgetSummary, List.mem_map, getSpentForPeriod_eq db _ _ _ _ []]
      constructor
      · exact ⟨_, ⟨limit, hmem, rfl⟩, rfl⟩
      · rintro line ⟨other, hother, rfl⟩ hid
        have hsame : other = limit := List.inj_on_of_nodup_map db.limitIds
          (mem_activeLimits.mp hother).1 (mem_activeLimits.mp hmem).1 hid
        rw [hsame]
        rfl
    · intro exceeded hexceeded limit hlimit hid hscope
      obtain ⟨other, hmem, hchecked, -, rfl⟩ := mem_exceededLimits.mp hexceeded
      have hsame : limit = other := List.inj_on_of_nodup_map db.limitIds hlimit
        (mem_activeLimits.mp hmem).1 hid
      rw [hsame] at hscope ⊢
      rcases (isChecked_iff db projectId other).mp hchecked with hcovers | hstray
      · exact hcovers
      · exact absurd hstray.1 hscope
    · exact fun hblocked next record hfollows ↦ hfollows.blocks hblocked

/-! ## A limit of no workspace -/

/-- A limit of a workspace, which does not say of which. -/
def namelessLimit : BudgetLimit where
  id := 1
  scope := .workspace
  scopeId := none
  period := .daily
  limitUsd := 1
  action := some .pause
  isActive := true

def noon : Instant where
  year := 2026
  month := 3
  day := 9
  hour := 12

/-- What another project has spent. -/
def spentElsewhere : UsageRecord where
  projectId := some 2
  totalCostUsd := some 2
  createdAt := noon
  isCost cost h := by
    rw [← Option.some.inj h]
    decide

def twoProjects : Database where
  now := noon
  projects := [⟨1, none⟩, ⟨2, some 7⟩]
  budgetLimits := [namelessLimit]
  usageRecords := [spentElsewhere]
  projectIds := by decide
  positive := by decide
  limitIds := by decide
  past record h := by
    rw [List.mem_singleton.mp h]
    decide

/-- The project without a workspace is blocked by what the project of a workspace has spent. -/
theorem not_gateIsExact_twoProjects : ¬GateIsExact twoProjects (some 1) := by
  intro hexact
  have hblocked : (checkBudget twoProjects (some 1)).allowed = false := by decide +kernel
  obtain ⟨limit, hlimit, -, hcovers, -⟩ := hexact.blocks_iff.mp hblocked
  rw [List.mem_singleton.mp hlimit] at hcovers
  revert hcovers
  decide

end Flockctl.Usage.Budget
