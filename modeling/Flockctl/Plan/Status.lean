import Mathlib.Data.List.Basic

/-!
# Statuses of plan entities

The statuses of milestones, slices and plan tasks. They live in the frontmatter of markdown files
that people and agents edit, so besides the values the daemon writes a file may hold any other.
-/

namespace Flockctl.Plan

/-- `MilestoneStatus`. -/
inductive MilestoneStatus
  | pending
  | planning
  | active
  | completed
  deriving DecidableEq, Repr

/-- `PlanTaskStatus`, or another value found in a file. -/
inductive PlanTaskStatus
  | pending
  | active
  | completed
  | failed
  | other (value : String)
  deriving DecidableEq, Repr

/-- `SliceStatus`, or another value found in a file. -/
inductive SliceStatus
  | pending
  | planning
  | active
  | verifying
  | merging
  | completed
  | skipped
  | failed
  | other (value : String)
  deriving DecidableEq, Repr

end Flockctl.Plan
