import Flockctl.Calendar.Stamps
import Mathlib.Data.Rat.Floor

/-!
# Budget limits

A limit is global or belongs to a workspace or a project, and sets what may be spent in a period.
Before a task runs, `checkBudget` adds up what has been spent under each limit of its project and of
the workspace of that; `getBudgetSummary` does so for all limits. Costs are rational numbers; the
rounding of the doubles that carry them is left out, as in the table of prices.
-/

namespace Flockctl.Usage.Budget

open Calendar

inductive BudgetScope
  | global
  | project
  | workspace
  deriving DecidableEq, Repr

inductive BudgetPeriod
  | daily
  | monthly
  | total
  deriving DecidableEq, Repr

inductive BudgetAction
  | pause
  | warn
  deriving DecidableEq, Repr

structure BudgetLimit where
  id : ℕ
  scope : BudgetScope
  scopeId : Option ℕ
  period : BudgetPeriod
  limitUsd : ℚ
  action : Option BudgetAction
  isActive : Bool
  deriving DecidableEq

structure Project where
  id : ℕ
  workspaceId : Option ℕ
  deriving DecidableEq

/-- A row of `usage_records`, with the cost of a call. -/
structure UsageRecord where
  projectId : Option ℕ
  totalCostUsd : Option ℚ
  createdAt : Instant
  isCost : ∀ cost, totalCostUsd = some cost → 0 ≤ cost

/-- The tables at an instant. The ids of rows count from 1, and rows are stamped when they are
written. -/
structure Database where
  now : Instant
  projects : List Project
  budgetLimits : List BudgetLimit
  usageRecords : List UsageRecord
  projectIds : (projects.map Project.id).Nodup
  positive : ∀ project ∈ projects, 0 < project.id
  limitIds : (budgetLimits.map BudgetLimit.id).Nodup
  past : ∀ record ∈ usageRecords, ¬now.Before record.createdAt

structure ExceededLimit where
  id : ℕ
  scope : BudgetScope
  period : BudgetPeriod
  limitUsd : ℚ
  spentUsd : ℚ
  action : BudgetAction

structure BudgetCheckResult where
  allowed : Bool
  exceededLimits : List ExceededLimit

structure BudgetLine where
  id : ℕ
  scope : BudgetScope
  scopeId : Option ℕ
  period : BudgetPeriod
  limitUsd : ℚ
  spentUsd : ℚ
  percentUsed : ℤ
  action : BudgetAction

/-- `getPeriodStart`, as a text of the database. -/
def getPeriodStart (now : Instant) : BudgetPeriod → Option (List Char)
  | .daily => some (now.isoText.take 10 ++ " 00:00:00".toList)
  | .monthly =>
    some (fixed 4 now.year ++ '-' :: (fixed 2 now.month ++ "-01 00:00:00".toList))
  | .total => none

/-- `COALESCE(SUM(total_cost_usd), 0)`. -/
def sumCosts (records : List UsageRecord) : ℚ := (records.filterMap UsageRecord.totalCostUsd).sum

/-- `gte(usageRecords.createdAt, dateFrom)`, where there is one. -/
def isSince (dateFrom : Option (List Char)) (record : UsageRecord) : Bool :=
  match dateFrom with
  | none => true
  | some text => !decide (record.createdAt.sqliteText < text)

/-- The projects of the workspaces that have been looked up in advance. -/
def projectIdsByWorkspace (db : Database) (workspaceIds : List ℕ) (workspaceId : ℕ) :
    Option (List ℕ) :=
  let rows := db.projects.filter fun project ↦
    workspaceIds.contains workspaceId && project.workspaceId == some workspaceId
  if rows = [] then none else some (rows.map Project.id)

def getSpentForPeriod (db : Database) (scope : BudgetScope) (scopeId : Option ℕ)
    (period : BudgetPeriod) (projectIdsByWorkspace : ℕ → Option (List ℕ)) : ℚ :=
  let since := db.usageRecords.filter (isSince (getPeriodStart db.now period))
  match scope, scopeId with
  | .project, some id => sumCosts (since.filter fun record ↦ record.projectId == some id)
  | .workspace, some id =>
    let projectIds := (projectIdsByWorkspace id).getD
      ((db.projects.filter (·.workspaceId == some id)).map Project.id)
    if projectIds = [] then 0
    else
      sumCosts (since.filter fun record ↦
        match record.projectId with
        | none => false
        | some project => projectIds.contains project)
  | _, _ => sumCosts since

/-- The workspace of the project, where there is a project and it has one. -/
def projectWorkspaceId (db : Database) (projectId : Option ℕ) : Option ℕ :=
  match projectId with
  | none | some 0 => none
  | some id => (db.projects.find? (·.id == id)).bind Project.workspaceId

/-- The limits that the loop does not pass over. -/
def isChecked (db : Database) (projectId : Option ℕ) (limit : BudgetLimit) : Bool :=
  !(limit.scope == .project && limit.scopeId != projectId) &&
    !(limit.scope == .workspace && projectWorkspaceId db projectId != limit.scopeId)

def activeLimits (db : Database) : List BudgetLimit := db.budgetLimits.filter BudgetLimit.isActive

def checkBudget (db : Database) (projectId : Option ℕ) : BudgetCheckResult :=
  let workspaceIds := (activeLimits db).filterMap fun limit ↦
    if limit.scope = .workspace ∧ projectWorkspaceId db projectId = limit.scopeId then limit.scopeId
    else none
  let exceeded := (activeLimits db).filterMap fun limit ↦
    if isChecked db projectId limit then
      let spent := getSpentForPeriod db limit.scope limit.scopeId limit.period
        (projectIdsByWorkspace db workspaceIds)
      if limit.limitUsd ≤ spent then
        some {
          id := limit.id
          scope := limit.scope
          period := limit.period
          limitUsd := limit.limitUsd
          spentUsd := spent
          action := limit.action.getD .pause }
      else none
    else none
  { allowed := (exceeded.filter (·.action == .pause)).isEmpty
    exceededLimits := exceeded }

/-- `Math.round`. -/
def round (value : ℚ) : ℤ := ⌊value + 1 / 2⌋

def getBudgetSummary (db : Database) : List BudgetLine :=
  let workspaceIds := (activeLimits db).filterMap fun limit ↦
    if limit.scope = .workspace then limit.scopeId else none
  (activeLimits db).map fun limit ↦
    let spent := getSpentForPeriod db limit.scope limit.scopeId limit.period
      (projectIdsByWorkspace db workspaceIds)
    { id := limit.id
      scope := limit.scope
      scopeId := limit.scopeId
      period := limit.period
      limitUsd := limit.limitUsd
      spentUsd := (round (spent * 1000000) : ℚ) / 1000000
      percentUsed := if (0 : ℚ) < limit.limitUsd then round (spent / limit.limitUsd * 100) else 0
      action := limit.action.getD .pause }

/-- The projects that are looked up in advance are those of the workspace. -/
theorem getD_projectIdsByWorkspace (db : Database) (workspaceIds : List ℕ) (id : ℕ) :
    (projectIdsByWorkspace db workspaceIds id).getD
        ((db.projects.filter (·.workspaceId == some id)).map Project.id) =
      (db.projects.filter (·.workspaceId == some id)).map Project.id := by
  by_cases hlisted : workspaceIds.contains id = true
  · simp only [projectIdsByWorkspace, hlisted, Bool.true_and]
    split
    · rfl
    · rfl
  · have hnone : projectIdsByWorkspace db workspaceIds id = none := by
      rw [Bool.not_eq_true] at hlisted
      simp only [projectIdsByWorkspace, hlisted, Bool.false_and]
      exact if_pos (List.filter_eq_nil_iff.mpr fun _ _ ↦ Bool.false_ne_true)
    rw [hnone, Option.getD_none]

/-- Both callers add up the same. -/
theorem getSpentForPeriod_eq (db : Database) (scope : BudgetScope)
    (scopeId : Option ℕ) (period : BudgetPeriod) (workspaceIds others : List ℕ) :
    getSpentForPeriod db scope scopeId period (projectIdsByWorkspace db workspaceIds) =
      getSpentForPeriod db scope scopeId period (projectIdsByWorkspace db others) := by
  cases scope with
  | global => rfl
  | project => cases scopeId <;> rfl
  | workspace =>
    cases scopeId with
    | none => rfl
    | some id => simp only [getSpentForPeriod, getD_projectIdsByWorkspace]

end Flockctl.Usage.Budget
