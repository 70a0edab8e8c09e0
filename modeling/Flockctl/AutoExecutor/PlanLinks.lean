import Flockctl.AutoExecutor.LookupRefinement

/-!
# What an operation does to the links of plan tasks

A plan task is linked to an execution task by the id in its file. An operation on the plan store
links a plan task to the task it gives it and to no other, and `repointPlanTask` moves a link from
one execution task to another.
-/

namespace Flockctl.AutoExecutor

open Collections Plan Tasks Ai Transition

namespace Resolver

variable {r : Resolver}

/-- The task a mutation gives the plan task at a location. -/
def given (r : Resolver) (result : Except String PlanStore) (location : PlanTaskLocation) :
    Option TaskId :=
  match result with
  | .error _ => none
  | .ok after =>
    if after.namedAt location = r.store.namedAt location then none else after.namedAt location

/-- The task an operation links a plan task to. -/
def gives (r : Resolver) : ResolverEvent → Option TaskId
  | .createPlanTask projectPath milestoneSlug sliceSlug base fields listed =>
    r.given (r.store.createPlanTask projectPath milestoneSlug sliceSlug base fields listed)
      (r.store.createdLocation projectPath milestoneSlug sliceSlug base)
  | .updatePlanTask location changes listed =>
    r.given (r.store.updatePlanTask location changes listed) location
  | .deletePlanTask location => r.given (r.store.deletePlanTask location) location
  | .repointPlanTask _ newTaskId _ => some newTaskId
  | _ => none

theorem named_of_given {result : Except String PlanStore} {location other : PlanTaskLocation}
    {id : TaskId} (hchanges : ∀ after, result = .ok after →
      ChangesOnly (· = location) r.store after)
    (hnamed : (r.mutate result).store.namedAt other = some id) :
    r.store.namedAt other = some id ∨ r.given result location = some id := by
  cases hresult : result with
  | error error =>
    rw [hresult] at hnamed
    exact Or.inl hnamed
  | ok after =>
    rw [hresult] at hnamed
    change after.namedAt other = some id at hnamed
    by_cases hother : other = location
    · subst hother
      by_cases hsame : after.namedAt other = r.store.namedAt other
      · exact Or.inl (hsame ▸ hnamed)
      · right
        simp only [given]
        rw [if_neg hsame]
        exact hnamed
    · rw [(hchanges after hresult).others other hother] at hnamed
      exact Or.inl hnamed

/-- A removed region holds no link afterwards. -/
theorem named_of_removed {before after : PlanStore} {region : PlanTaskLocation → Prop}
    (hchanges : ChangesOnly region before after)
    (hnone : ∀ location, region location → after.namedAt location = none)
    {location : PlanTaskLocation} {id : TaskId} (hnamed : after.namedAt location = some id) :
    before.namedAt location = some id := by
  by_cases hregion : region location
  · rw [hnone location hregion] at hnamed
    cases hnamed
  · rw [← hchanges.others location hregion]
    exact hnamed

/-- `repointPlanTask` leaves the links as they are, where no plan task is linked to the previous
task or its location is refused; otherwise it changes the link of that plan task. -/
theorem repointPlanTask_cases (h : Coherent r) (previousTaskId newTaskId : TaskId) (listed : Bool) :
    ((∀ location, freshWalk r.store previousTaskId = some location →
        PlanStore.assertSafeLocation location ≠ .ok ()) ∧
      (r.repointPlanTask previousTaskId newTaskId listed).store.namedAt = r.store.namedAt) ∨
    ∃ location, freshWalk r.store previousTaskId = some location ∧
      (∀ other, other ≠ location →
        (r.repointPlanTask previousTaskId newTaskId listed).store.namedAt other =
          r.store.namedAt other) ∧
      (r.repointPlanTask previousTaskId newTaskId listed).store.namedAt location =
        if listed then some newTaskId else none := by
  obtain ⟨hanswer, htrees, hfound⟩ := Resolver.find_spec h previousTaskId
  unfold Resolver.repointPlanTask
  cases hfind : r.findPlanTaskByExecutionId previousTaskId with
  | mk found answer =>
    rw [hfind] at hanswer htrees hfound
    have hnames : found.store.namedAt = r.store.namedAt := htrees.namedAt_eq
    cases answer with
    | none =>
      refine Or.inl ⟨?_, hnames⟩
      intro location hlocation
      rw [← hanswer] at hlocation
      cases hlocation
    | some location =>
      have hwalk : freshWalk r.store previousTaskId = some location := hanswer.symm
      have hnamed : found.store.namedAt location = some previousTaskId := by
        rw [hnames]
        exact (freshWalk_eq_some_iff h.healthy h.once _ _).mp hwalk
      have hslug : location.taskSlug ≠ "slice" :=
        ((PlanStore.namedAt_eq_some_iff _ _ _).mp hnamed).2.1
      rcases Resolver.writeFound_spec hfound.healthy hnamed ((statusChange "active").merge fun key ↦
        if key = "execution_task_id" then some (.number newTaskId) else none) listed with
        ⟨hrefused, hwrite⟩ | ⟨fm, after, _, hwrite, hchanges, hafter⟩
      · simp only [hwrite]
        refine Or.inl ⟨?_, hnames⟩
        intro other hother
        rw [hwalk] at hother
        cases hother
        exact hrefused
      · simp only [hwrite]
        refine Or.inr ⟨location, hwalk, ?_, ?_⟩
        · intro other hother
          rw [← hnames]
          exact hchanges.others other hother
        · change after.namedAt location = _
          rw [hafter]
          cases listed with
          | true =>
            rw [if_pos rfl, namedTask_eq_some_iff]
            exact ⟨hslug, _, rfl, rfl⟩
          | false =>
            rw [if_neg Bool.false_ne_true, Option.eq_none_iff_forall_ne_some]
            intro id hid
            obtain ⟨_, fields, hfields, _⟩ := (namedTask_eq_some_iff _ _ _).mp hid
            cases hfields

/-- A link is there before the operation, or the operation gives it. -/
theorem named_of_step (h : Coherent r) {event : ResolverEvent}
    (hkeeps : r.keepsAnswers event = true) {location : PlanTaskLocation} {id : TaskId}
    (hnamed : (r.step event).store.namedAt location = some id) :
    r.store.namedAt location = some id ∨ r.gives event = some id := by
  cases event with
  | createPlanTask projectPath milestoneSlug sliceSlug base fields listed =>
    exact named_of_given (fun _ ↦ PlanStore.createPlanTask_changes) hnamed
  | updatePlanTask target changes listed =>
    exact named_of_given (fun _ ↦ PlanStore.updatePlanTask_changes) hnamed
  | deletePlanTask target =>
    have hslug := (Bool.and_eq_true_iff.mp hkeeps).1
    exact named_of_given (fun _ ↦ PlanStore.deletePlanTask_changes (bne_iff_ne.mp hslug)) hnamed
  | deleteSlice projectPath milestoneSlug sliceSlug =>
    have hslug := (Bool.and_eq_true_iff.mp hkeeps).1
    change (r.mutate (r.store.deleteSlice projectPath milestoneSlug sliceSlug)).store.namedAt
      location = some id at hnamed
    cases hresult : r.store.deleteSlice projectPath milestoneSlug sliceSlug with
    | error error =>
      rw [hresult] at hnamed
      exact Or.inl hnamed
    | ok after =>
      rw [hresult] at hnamed
      obtain ⟨hchanges, hnone⟩ := PlanStore.deleteSlice_changes (bne_iff_ne.mp hslug) hresult
      exact Or.inl (named_of_removed hchanges hnone hnamed)
  | deleteMilestone projectPath milestoneSlug =>
    change (r.mutate (r.store.deleteMilestone projectPath milestoneSlug)).store.namedAt
      location = some id at hnamed
    cases hresult : r.store.deleteMilestone projectPath milestoneSlug with
    | error error =>
      rw [hresult] at hnamed
      exact Or.inl hnamed
    | ok after =>
      rw [hresult] at hnamed
      obtain ⟨hchanges, hnone⟩ := PlanStore.deleteMilestone_changes hresult
      exact Or.inl (named_of_removed hchanges hnone hnamed)
  | repointPlanTask previousTaskId newTaskId listed =>
    rcases repointPlanTask_cases h previousTaskId newTaskId listed with ⟨_, hsame⟩ |
      ⟨target, hwalk, hothers, htarget⟩
    · exact Or.inl (hsame ▸ hnamed)
    · by_cases hlocation : location = target
      · right
        change (r.repointPlanTask previousTaskId newTaskId listed).store.namedAt location = _
          at hnamed
        rw [hlocation, htarget] at hnamed
        cases listed <;> simp_all [gives]
      · exact Or.inl (hothers location hlocation ▸ hnamed)
  | syncPlanFromExecutionTask taskId status listed =>
    exact Or.inl (h.syncPlanFromExecutionTask_names hkeeps ▸ hnamed)
  | find taskId =>
    have htrees := (Resolver.find_spec h taskId).2.1
    exact Or.inl (htrees.namedAt_eq ▸ hnamed)
  | pass milliseconds => exact Or.inl hnamed

end Resolver

end Flockctl.AutoExecutor
