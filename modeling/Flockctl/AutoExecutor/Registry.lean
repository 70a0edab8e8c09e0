import Flockctl.Ai.KeySelection
import Flockctl.Collections.JsMap
import Flockctl.Transition.Run

/-!
# The registry of auto-executions

`startAutoExecution` enters a state object into a process-wide map, runs the milestone, and
deletes the entry in its `finally` block; `stopAutoExecution` deletes it at once, while the run it
stops goes on unwinding. The key of the map is the milestone slug alone, although the routes name
a project as well, and both deletions are by key. So a run can lose the entry it is registered
under, and a request can meet the run of another project, whenever two runs with one slug are in
progress together. The registry stays right exactly in the runs that keep such runs apart.
-/

namespace Flockctl.AutoExecutor

open Collections Ai Transition

/-- `AutoExecutorState`: its fixed fields, with `run` for the identity of the object. -/
structure AutoExecutorState where
  run : ℕ
  projectId : ProjectId
  projectPath : String
  milestoneSlug : String
  deriving DecidableEq, Repr

/-- A call of `executeMilestone` that has not settled, with the `running` flag of its state. -/
structure MilestoneRun where
  state : AutoExecutorState
  running : Bool
  deriving DecidableEq, Repr

/-- What happened to a request: it was dropped, or it aborted a run; `holder` is the project of
the run that was registered. -/
inductive RegistryEffect
  | dropped (projectId : ProjectId) (milestoneSlug : String) (holder : ProjectId)
  | aborted (projectId : ProjectId) (milestoneSlug : String) (holder : ProjectId)
  deriving DecidableEq, Repr

/-- `activeExecutions`, the runs in progress and the record of the requests, latest first. -/
structure Registry where
  activeExecutions : JsMap String AutoExecutorState := JsMap.empty
  inProgress : List MilestoneRun := []
  nextRun : ℕ := 0
  trace : List RegistryEffect := []

inductive RegistryEvent
  | start (projectId : ProjectId) (projectPath : String) (milestoneSlug : String)
  | stop (projectId : ProjectId) (milestoneSlug : String)
  | status (milestoneSlug : String)
  | settle (i : ℕ)
  deriving DecidableEq, Repr

namespace Registry

/-- `startAutoExecution` up to the first `await` of `executeMilestone`. -/
def startAutoExecution (r : Registry) (projectId : ProjectId) (projectPath : String)
    (milestoneSlug : String) : Registry :=
  match r.activeExecutions.get milestoneSlug with
  | some state => { r with trace := .dropped projectId milestoneSlug state.projectId :: r.trace }
  | none =>
    let state : AutoExecutorState :=
      { run := r.nextRun, projectId := projectId, projectPath := projectPath,
        milestoneSlug := milestoneSlug }
    { r with
      activeExecutions := r.activeExecutions.set milestoneSlug state
      inProgress := r.inProgress ++ [⟨state, true⟩]
      nextRun := r.nextRun + 1 }

/-- `state.running = false` on the runs that share a state object. -/
def halt (state : AutoExecutorState) (run : MilestoneRun) : MilestoneRun :=
  if run.state = state then { run with running := false } else run

/-- The stop route of a project: `stopAutoExecution` is given the slug only. -/
def stopAutoExecution (r : Registry) (projectId : ProjectId) (milestoneSlug : String) : Registry :=
  match r.activeExecutions.get milestoneSlug with
  | none => r
  | some state =>
    { r with
      activeExecutions := r.activeExecutions.delete milestoneSlug
      inProgress := r.inProgress.map (halt state)
      trace := .aborted projectId milestoneSlug state.projectId :: r.trace }

/-- The `finally` block of a run whose `executeMilestone` has settled. -/
def settle (r : Registry) (i : ℕ) : Registry :=
  match r.inProgress[i]? with
  | none => r
  | some run =>
    { r with
      activeExecutions := r.activeExecutions.delete run.state.milestoneSlug
      inProgress := r.inProgress.eraseIdx i }

def step (r : Registry) : RegistryEvent → Registry
  | .start projectId projectPath milestoneSlug =>
    r.startAutoExecution projectId projectPath milestoneSlug
  | .stop projectId milestoneSlug => r.stopAutoExecution projectId milestoneSlug
  | .status _ => r
  | .settle i => r.settle i

/-- The runs of a project's milestone that are in progress and not stopped. -/
def runsOf (r : Registry) (projectId : ProjectId) (milestoneSlug : String) : ℕ :=
  r.inProgress.countP fun run ↦ run.running && run.state.projectId == projectId &&
    run.state.milestoneSlug == milestoneSlug

end Registry

/-- The request met a run of its own project. -/
def RegistryEffect.independent : RegistryEffect → Bool
  | .dropped projectId _ holder => projectId == holder
  | .aborted projectId _ holder => projectId == holder

/-- Every project's milestone has one unstopped run at most, every unstopped run is registered,
and no request was dropped or obeyed on account of another project. -/
structure Exclusive (r : Registry) : Prop where
  single : ∀ projectId milestoneSlug, r.runsOf projectId milestoneSlug ≤ 1
  registered : ∀ run ∈ r.inProgress, run.running = true →
    r.activeExecutions.get run.state.milestoneSlug = some run.state
  independent : ∀ effect ∈ r.trace, effect.independent = true

/-- A start or a stop finds no run of another project under its slug, and a run settles when no
other unstopped run with its slug is in progress. -/
def keepsApart (r : Registry) : RegistryEvent → Bool
  | .start projectId _ milestoneSlug | .stop projectId milestoneSlug =>
    (r.activeExecutions.get milestoneSlug).all fun state ↦ state.projectId == projectId
  | .settle i =>
    r.inProgress[i]?.all fun run ↦ (r.inProgress.eraseIdx i).all fun other ↦
      !other.running || other.state.milestoneSlug != run.state.milestoneSlug
  | .status _ => true

theorem keepsApart_start_iff (r : Registry) (projectId : ProjectId)
    (projectPath milestoneSlug : String) :
    keepsApart r (.start projectId projectPath milestoneSlug) = true ↔
      ∀ state, r.activeExecutions.get milestoneSlug = some state →
        state.projectId = projectId := by
  cases hget : r.activeExecutions.get milestoneSlug <;> simp [keepsApart, hget]

theorem keepsApart_stop_iff (r : Registry) (projectId : ProjectId) (milestoneSlug : String) :
    keepsApart r (.stop projectId milestoneSlug) = true ↔
      ∀ state, r.activeExecutions.get milestoneSlug = some state →
        state.projectId = projectId := by
  cases hget : r.activeExecutions.get milestoneSlug <;> simp [keepsApart, hget]

theorem keepsApart_settle_iff (r : Registry) (i : ℕ) :
    keepsApart r (.settle i) = true ↔
      ∀ run, r.inProgress[i]? = some run → ∀ other ∈ r.inProgress.eraseIdx i,
        other.running = true → other.state.milestoneSlug ≠ run.state.milestoneSlug := by
  have hor (a b : Bool) : (!a || b) = true ↔ (a = true → b = true) := by cases a <;> simp
  cases hget : r.inProgress[i]? <;> simp [keepsApart, hget, hor]

/-- The slugs of the runs that have not been stopped. -/
def unstoppedSlugs (runs : List MilestoneRun) : List String :=
  (runs.filter (·.running)).map fun run ↦ run.state.milestoneSlug

/-- The invariant behind it: the slugs of the unstopped runs are distinct, a registered run is in
progress and unstopped, and an unstopped run is registered. -/
structure Apart (r : Registry) : Prop where
  distinct : (unstoppedSlugs r.inProgress).Nodup
  entry : ∀ milestoneSlug state, r.activeExecutions.get milestoneSlug = some state →
    state.milestoneSlug = milestoneSlug ∧ ⟨state, true⟩ ∈ r.inProgress
  registered : ∀ run ∈ r.inProgress, run.running = true →
    r.activeExecutions.get run.state.milestoneSlug = some run.state
  independent : ∀ effect ∈ r.trace, effect.independent = true

theorem mem_unstoppedSlugs_iff (runs : List MilestoneRun) (milestoneSlug : String) :
    milestoneSlug ∈ unstoppedSlugs runs ↔
      ∃ run ∈ runs, run.running = true ∧ run.state.milestoneSlug = milestoneSlug := by
  simp [unstoppedSlugs, and_assoc]

theorem unstoppedSlugs_append (runs others : List MilestoneRun) :
    unstoppedSlugs (runs ++ others) = unstoppedSlugs runs ++ unstoppedSlugs others := by
  rw [unstoppedSlugs, List.filter_append, List.map_append]
  rfl

theorem unstoppedSlugs_halt (state : AutoExecutorState) (runs : List MilestoneRun) :
    (unstoppedSlugs (runs.map (Registry.halt state))).Sublist (unstoppedSlugs runs) := by
  induction runs with
  | nil => exact List.Sublist.refl _
  | cons run runs ih =>
    obtain ⟨held, running⟩ := run
    by_cases hstate : held = state
    · have hhalt : Registry.halt state ⟨held, running⟩ = ⟨held, false⟩ := if_pos hstate
      cases running
      · simpa [unstoppedSlugs, hhalt] using ih
      · simpa [unstoppedSlugs, hhalt] using ih.cons held.milestoneSlug
    · have hhalt : Registry.halt state ⟨held, running⟩ = ⟨held, running⟩ := if_neg hstate
      cases running
      · simpa [unstoppedSlugs, hhalt] using ih
      · simpa [unstoppedSlugs, hhalt] using ih

namespace Apart

variable {r : Registry}

theorem initial : Apart {} where
  distinct := List.nodup_nil
  entry milestoneSlug state hstate := by cases hstate
  registered run hrun := by cases hrun
  independent effect heffect := by cases heffect

theorem exclusive (h : Apart r) : Exclusive r where
  single projectId milestoneSlug := by
    calc r.runsOf projectId milestoneSlug
        ≤ r.inProgress.countP fun run ↦
            (run.state.milestoneSlug == milestoneSlug) && run.running := by
          apply List.countP_mono_left
          intro run _ hcounted
          simp only [Bool.and_eq_true] at hcounted ⊢
          exact ⟨hcounted.2, hcounted.1.1⟩
      _ = (unstoppedSlugs r.inProgress).count milestoneSlug := by
          rw [unstoppedSlugs, List.count, List.countP_map, List.countP_filter]
          rfl
      _ ≤ 1 := List.nodup_iff_count_le_one.mp h.distinct milestoneSlug
  registered := h.registered
  independent := h.independent

theorem start (h : Apart r) {projectId : ProjectId} {projectPath milestoneSlug : String}
    (happart : keepsApart r (.start projectId projectPath milestoneSlug) = true) :
    Apart (r.startAutoExecution projectId projectPath milestoneSlug) := by
  unfold Registry.startAutoExecution
  cases hget : r.activeExecutions.get milestoneSlug with
  | some state =>
    have hproject : state.projectId = projectId :=
      (keepsApart_start_iff r projectId projectPath milestoneSlug).mp happart state hget
    refine ⟨h.distinct, h.entry, h.registered, ?_⟩
    intro effect heffect
    rcases List.mem_cons.mp heffect with rfl | heffect
    · exact beq_iff_eq.mpr hproject.symm
    · exact h.independent effect heffect
  | none =>
    -- an unstopped run with this slug would be registered
    have hfresh (run : MilestoneRun) (hrun : run ∈ r.inProgress) (hrunning : run.running = true) :
        run.state.milestoneSlug ≠ milestoneSlug := by
      intro hslug
      have hentry := h.registered run hrun hrunning
      rw [hslug, hget] at hentry
      cases hentry
    refine ⟨?_, ?_, ?_, h.independent⟩
    · change (unstoppedSlugs (r.inProgress ++ [_])).Nodup
      rw [unstoppedSlugs_append, List.nodup_append_comm]
      apply List.nodup_cons.mpr
      refine ⟨?_, h.distinct⟩
      intro hmem
      obtain ⟨run, hrun, hrunning, hslug⟩ := (mem_unstoppedSlugs_iff _ _).mp hmem
      exact hfresh run hrun hrunning hslug
    · intro other state hstate
      rw [JsMap.get_set] at hstate
      split at hstate
      · rename_i hother
        cases hstate
        exact ⟨hother.symm, List.mem_append_right _ (List.mem_singleton.mpr rfl)⟩
      · have hentry := h.entry other state hstate
        exact ⟨hentry.1, List.mem_append_left _ hentry.2⟩
    · intro run hrun hrunning
      rw [JsMap.get_set]
      rcases List.mem_append.mp hrun with hrun | hrun
      · rw [if_neg (hfresh run hrun hrunning)]
        exact h.registered run hrun hrunning
      · rw [List.mem_singleton.mp hrun, if_pos rfl]

theorem stop (h : Apart r) {projectId : ProjectId} {milestoneSlug : String}
    (happart : keepsApart r (.stop projectId milestoneSlug) = true) :
    Apart (r.stopAutoExecution projectId milestoneSlug) := by
  unfold Registry.stopAutoExecution
  cases hget : r.activeExecutions.get milestoneSlug with
  | none => exact h
  | some state =>
    have hproject : state.projectId = projectId :=
      (keepsApart_stop_iff r projectId milestoneSlug).mp happart state hget
    refine ⟨h.distinct.sublist (unstoppedSlugs_halt state r.inProgress), ?_, ?_, ?_⟩
    · intro other held hheld
      obtain ⟨hother, hheld⟩ := JsMap.get_delete_eq_some_iff.mp hheld
      have hentry := h.entry other held hheld
      have hheld' : held ≠ state := by
        rintro rfl
        exact hother (hentry.1.symm.trans (h.entry milestoneSlug held hget).1)
      exact ⟨hentry.1, List.mem_map.mpr ⟨_, hentry.2, if_neg hheld'⟩⟩
    · intro run hrun hrunning
      obtain ⟨before, hbefore, rfl⟩ := List.mem_map.mp hrun
      unfold Registry.halt at hrunning ⊢
      split at hrunning
      · cases hrunning
      · rename_i hstate
        have hentry := h.registered before hbefore hrunning
        have hslug : before.state.milestoneSlug ≠ milestoneSlug := by
          intro hslug
          rw [hslug, hget] at hentry
          exact hstate (Option.some.inj hentry).symm
        rw [if_neg hstate, JsMap.get_delete_of_ne _ hslug]
        exact hentry
    · intro effect heffect
      rcases List.mem_cons.mp heffect with rfl | heffect
      · exact beq_iff_eq.mpr hproject.symm
      · exact h.independent effect heffect

theorem settle (h : Apart r) {i : ℕ} (happart : keepsApart r (.settle i) = true) :
    Apart (r.settle i) := by
  unfold Registry.settle
  cases hrun : r.inProgress[i]? with
  | none => exact h
  | some run =>
    have hothers := (keepsApart_settle_iff r i).mp happart run hrun
    have hsub : (r.inProgress.eraseIdx i).Sublist r.inProgress := List.eraseIdx_sublist _ _
    refine ⟨h.distinct.sublist ((hsub.filter _).map _), ?_, ?_, h.independent⟩
    · intro other state hstate
      obtain ⟨hother, hstate⟩ := JsMap.get_delete_eq_some_iff.mp hstate
      have hentry := h.entry other state hstate
      obtain ⟨j, hj⟩ := List.mem_iff_getElem?.mp hentry.2
      have hne : j ≠ i := by
        rintro rfl
        rw [hrun] at hj
        cases hj
        exact hother hentry.1.symm
      exact ⟨hentry.1, List.mem_eraseIdx_iff_getElem?.mpr ⟨j, hne, hj⟩⟩
    · intro other hother hrunning
      rw [JsMap.get_delete_of_ne _ (hothers other hother hrunning)]
      exact h.registered other (hsub.subset hother) hrunning

/-- A step that keeps runs apart preserves the invariant. -/
theorem step (h : Apart r) (event : RegistryEvent) (happart : keepsApart r event = true) :
    Apart (r.step event) := by
  cases event with
  | start projectId projectPath milestoneSlug => exact h.start happart
  | stop projectId milestoneSlug => exact h.stop happart
  | status milestoneSlug => exact h
  | settle i => exact h.settle happart

end Apart

/-- Any other step breaks exclusiveness at once. -/
theorem keepsApart_of_exclusive {r : Registry} (event : RegistryEvent)
    (hexclusive : Exclusive (r.step event)) : keepsApart r event = true := by
  cases event with
  | start projectId projectPath milestoneSlug =>
    apply (keepsApart_start_iff r projectId projectPath milestoneSlug).mpr
    intro state hget
    have htrace : RegistryEffect.dropped projectId milestoneSlug state.projectId ∈
        (r.step (.start projectId projectPath milestoneSlug)).trace := by
      simp [Registry.step, Registry.startAutoExecution, hget]
    exact (beq_iff_eq.mp (hexclusive.independent _ htrace)).symm
  | stop projectId milestoneSlug =>
    apply (keepsApart_stop_iff r projectId milestoneSlug).mpr
    intro state hget
    have htrace : RegistryEffect.aborted projectId milestoneSlug state.projectId ∈
        (r.step (.stop projectId milestoneSlug)).trace := by
      simp [Registry.step, Registry.stopAutoExecution, hget]
    exact (beq_iff_eq.mp (hexclusive.independent _ htrace)).symm
  | status milestoneSlug => rfl
  | settle i =>
    apply (keepsApart_settle_iff r i).mpr
    intro run hrun other hother hrunning hslug
    have hsettled : r.step (.settle i) =
        { r with
          activeExecutions := r.activeExecutions.delete run.state.milestoneSlug
          inProgress := r.inProgress.eraseIdx i } := by
      simp [Registry.step, Registry.settle, hrun]
    rw [hsettled] at hexclusive
    have hentry := hexclusive.registered other hother hrunning
    rw [hslug, JsMap.get_delete_self] at hentry
    cases hentry

/-- The runs of the daemon that are exclusive throughout are those whose steps keep runs apart. -/
theorem exclusive_iff_keepsApart (events : List RegistryEvent) :
    (∀ before, before <+: events → Exclusive (run Registry.step {} before)) ↔
      Disciplined Registry.step (fun r event ↦ keepsApart r event = true) {} events :=
  disciplined_iff_good (fun _ event h ↦ h.step event) (fun _ h ↦ h.exclusive)
    (fun _ event _ ↦ keepsApart_of_exclusive event) Apart.initial events

/-- Two projects with milestones of one slug, and one milestone stopped and started again. -/
theorem exclusive_fails_sameSlug :
    ¬Exclusive (run Registry.step {} [.start 1 "/a" "01-core", .start 2 "/b" "01-core"]) ∧
    ¬Exclusive (run Registry.step {} [.start 1 "/a" "01-core", .stop 2 "01-core"]) ∧
    ¬Exclusive (run Registry.step {} [.start 1 "/a" "01-core", .stop 1 "01-core",
      .start 1 "/a" "01-core", .settle 0]) ∧
    ¬Exclusive (run Registry.step {} [.start 1 "/a" "01-core", .stop 1 "01-core",
      .start 1 "/a" "01-core", .settle 0, .start 1 "/a" "01-core"]) := by
  refine ⟨?_, ?_, ?_, ?_⟩
  · intro h
    have hdropped := h.independent (.dropped 2 "01-core" 1) (by decide)
    cases hdropped
  · intro h
    have haborted := h.independent (.aborted 2 "01-core" 1) (by decide)
    cases haborted
  · intro h
    have hentry := h.registered ⟨⟨1, 1, "/a", "01-core"⟩, true⟩ (by decide) rfl
    revert hentry
    decide
  · intro h
    have hsingle := h.single 1 "01-core"
    revert hsingle
    decide

end Flockctl.AutoExecutor
