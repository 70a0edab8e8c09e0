import Flockctl.AutoExecutor.MilestoneExecution

/-!
# Dependencies and dispatch

A plan task or a slice is dispatched in the wave its dependencies assign it to, and the waves are
layers of the dependency graph; so at that moment its dependencies lie in waves that have settled.
The loops do not look at what these settled with. A run therefore dispatches on completed
dependencies only, exactly when it never goes on to a wave while one of the items left behind, on
which an open item of that wave depends, is anything else than completed.
-/

namespace Flockctl.AutoExecutor

open Collections Flockctl.Graph Plan Tasks Transition

/-! ## What the executor distinguishes -/

/-- The classes of statuses on which the executor branches. -/
inductive Outcome
  | completed
  | failed
  | unfinished
  deriving DecidableEq, Repr

def PlanTaskNode.outcome (node : PlanTaskNode) : Outcome :=
  match node.status with
  | .completed => .completed
  | .failed => .failed
  | _ => .unfinished

def SliceNode.outcome (node : SliceNode) : Outcome :=
  match node.status with
  | .completed => .completed
  | .failed => .failed
  | _ => .unfinished

theorem PlanTaskNode.outcome_eq_unfinished_iff (node : PlanTaskNode) :
    node.outcome = .unfinished ↔ ¬(node.status = .completed ∨ node.status = .failed) := by
  cases hstatus : node.status <;> simp [outcome, hstatus]

theorem PlanTaskNode.outcome_eq_completed_iff (node : PlanTaskNode) :
    node.outcome = .completed ↔ node.status = .completed := by
  cases hstatus : node.status <;> simp [outcome, hstatus]

theorem SliceNode.outcome_eq_unfinished_iff (node : SliceNode) :
    node.outcome = .unfinished ↔ ¬(node.status = .completed ∨ node.status = .failed) := by
  cases hstatus : node.status <;> simp [outcome, hstatus]

theorem SliceNode.outcome_eq_completed_iff (node : SliceNode) :
    node.outcome = .completed ↔ node.status = .completed := by
  cases hstatus : node.status <;> simp [outcome, hstatus]

/-- A dispatch on completed dependencies. -/
def Dispatch.Gated : Dispatch → Prop
  | .planTask _ _ dependencies => ∀ status ∈ dependencies, status = some .completed
  | .slice _ dependencies => ∀ status ∈ dependencies, status = some .completed

instance decidableGated : ∀ dispatch : Dispatch, Decidable dispatch.Gated
  | .planTask _ _ dependencies =>
    inferInstanceAs (Decidable (∀ status ∈ dependencies, status = some .completed))
  | .slice _ dependencies =>
    inferInstanceAs (Decidable (∀ status ∈ dependencies, status = some .completed))

/-- If the item is open, its dependencies are completed. -/
def Ready (items : List (DependencyItem String)) (outcome : String → Option Outcome)
    (id : String) : Prop :=
  outcome id = some .unfinished → ∀ other, Needs items id other → outcome other = some .completed

/-- The recorded statuses of the dependencies of an open item say whether it is ready. -/
theorem forall_completed_iff_ready {Status : Type} {items : List (DependencyItem String)}
    {outcome : String → Option Outcome} {id : String} {depends : List String}
    {status : String → Option Status} {completed : Status}
    (hopen : outcome id = some .unfinished)
    (hneeds : ∀ other, Needs items id other ↔ other ∈ depends)
    (hstatus : ∀ other, status other = some completed ↔ outcome other = some .completed) :
    (∀ recorded ∈ depends.map status, recorded = some completed) ↔ Ready items outcome id := by
  simp only [Ready, hopen, forall_true_left, hneeds, List.forall_mem_map, hstatus]

/-- Of the items that lie behind the waves to come, those on which an open item of the next wave
depends are completed. -/
def NoneLeftBehind (items : List (DependencyItem String)) (outcome : String → Option Outcome) :
    List (Wave String) → Prop
  | [] => True
  | wave :: rest =>
    ∀ item ∈ items, item.id ∈ wave.ids → outcome item.id = some .unfinished →
      ∀ other ∈ item.depends, other ∉ ((wave :: rest).map (·.ids)).flatten →
        outcome other = some .completed

instance decidableNoneLeftBehind (items : List (DependencyItem String))
    (outcome : String → Option Outcome) : ∀ waves, Decidable (NoneLeftBehind items outcome waves)
  | [] => inferInstanceAs (Decidable True)
  | wave :: rest =>
    inferInstanceAs (Decidable (∀ item ∈ items, item.id ∈ wave.ids →
      outcome item.id = some .unfinished → ∀ other ∈ item.depends,
        other ∉ ((wave :: rest).map (·.ids)).flatten → outcome other = some .completed))

/-- An item of the next wave depends on nothing that is still to come. -/
theorem noneLeftBehind_cons_iff {items : List (DependencyItem String)}
    {outcome : String → Option Outcome} {wave : Wave String} {rest : List (Wave String)}
    (hlayered : Layered (Needs items) ((wave :: rest).map (·.ids))) :
    NoneLeftBehind items outcome (wave :: rest) ↔ ∀ id ∈ wave.ids, Ready items outcome id := by
  constructor
  · rintro hnone id hid hopen other ⟨item, hitem, rfl, hother⟩
    exact hnone item hitem hid hopen other hother (hlayered.1 _ hid other ⟨item, hitem, rfl, hother⟩)
  · intro hready item hitem hid hopen other hother _
    exact hready item.id hid hopen other ⟨item, hitem, rfl, hother⟩

/-- The first wave leaves nothing behind. -/
theorem noneLeftBehind_computeWaves {items : List (DependencyItem String)}
    (hdistinct : (items.map (·.id)).Nodup) (hitems : WellFormed items)
    (outcome : String → Option Outcome) : NoneLeftBehind items outcome (computeWaves items) := by
  have hcovered := mem_computeWaves_iff hdistinct
  cases hwaves : computeWaves items with
  | nil => trivial
  | cons wave rest =>
    intro item hitem _ _ other hother hbehind
    rw [← hwaves, hcovered] at hbehind
    exact absurd (hitems.closed item hitem other hother) hbehind

/-- What the loops work through: the items of both levels and the waves to come. -/
@[ext]
structure Outline where
  sliceItems : List (DependencyItem String)
  taskItems : String → List (DependencyItem String)
  sliceWaves : List (Wave String)
  taskWaves : String → Option (List (Wave String))

/-- Both levels are well formed, and the waves to come are layers. -/
structure Outline.Ordered (outline : Outline) : Prop where
  sliceLevel : WellFormed outline.sliceItems
  taskLevel : ∀ sliceSlug, WellFormed (outline.taskItems sliceSlug)
  sliceWaves : Layered (Needs outline.sliceItems) (outline.sliceWaves.map (·.ids))
  taskWaves : ∀ sliceSlug waves, outline.taskWaves sliceSlug = some waves →
    Layered (Needs (outline.taskItems sliceSlug)) (waves.map (·.ids))

/-- The dependencies of the slices, and those of the plan tasks of each slice, are acyclic and
name existing siblings. -/
structure WellFormedTree (slices : JsMap String SliceNode) : Prop where
  sliceLevel : WellFormed (dependencyItems SliceNode.depends slices)
  taskLevel : ∀ sliceSlug slice, slices.get sliceSlug = some slice →
    WellFormed (dependencyItems PlanTaskNode.depends slice.planTasks)

theorem wellFormed_nil : WellFormed ([] : List (DependencyItem String)) where
  acyclic node hcycle := by
    obtain ⟨_, hedge, _⟩ := (Relation.TransGen.head'_iff).mp hcycle
    obtain ⟨item, hitem, _⟩ := hedge
    cases hitem
  closed item hitem := by cases hitem

/-! ## Items of a map -/

section

variable {Node : Type} {depends : Node → List String}

theorem dependencyItems_nodup (nodes : JsMap String Node) :
    ((dependencyItems depends nodes).map (·.id)).Nodup := by
  have hids : (dependencyItems depends nodes).map (·.id) = nodes.keys := by
    simp [dependencyItems, JsMap.keys]
  rw [hids]
  exact nodes.nodup

theorem dependencyItems_mapWithKey (nodes : JsMap String Node) (change : String → Node → Node)
    (hchange : ∀ key node, depends (change key node) = depends node) :
    dependencyItems depends (nodes.mapWithKey change) = dependencyItems depends nodes := by
  rw [dependencyItems, dependencyItems, JsMap.mapWithKey, List.map_map]
  congr 1
  funext entry
  simp only [Function.comp, hchange]

theorem dependencyItems_modify (nodes : JsMap String Node) (key : String) (change : Node → Node)
    (hchange : ∀ node, depends (change node) = depends node) :
    dependencyItems depends (nodes.modify key change) = dependencyItems depends nodes := by
  apply dependencyItems_mapWithKey
  intro other node
  split
  · exact hchange node
  · rfl

theorem needs_dependencyItems_iff (nodes : JsMap String Node) (id other : String) :
    Needs (dependencyItems depends nodes) id other ↔
      ∃ node, nodes.get id = some node ∧ other ∈ depends node := by
  simp only [← JsMap.mem_entries_iff]
  constructor
  · rintro ⟨item, hitem, hid, hother⟩
    obtain ⟨⟨key, node⟩, hentry, rfl⟩ := List.mem_map.mp hitem
    change key = id at hid
    rw [hid] at hentry
    exact ⟨node, hentry, hother⟩
  · rintro ⟨node, hentry, hother⟩
    exact ⟨_, List.mem_map.mpr ⟨(id, node), hentry, rfl⟩, rfl, hother⟩

end

namespace MilestoneExecution

def outline (m : MilestoneExecution) : Outline where
  sliceItems := m.sliceItems
  taskItems := m.taskItems
  sliceWaves := m.waves
  taskWaves sliceSlug := (m.started.get sliceSlug).map (·.waves)

def sliceOutcome (m : MilestoneExecution) (sliceSlug : String) : Option Outcome :=
  (m.slices.get sliceSlug).map (·.outcome)

def taskOutcome (m : MilestoneExecution) (sliceSlug taskSlug : String) : Option Outcome :=
  (m.planTask sliceSlug taskSlug).map (·.outcome)

/-- All dispatches so far were gated. -/
def Gated (m : MilestoneExecution) : Prop := ∀ dispatch ∈ m.trace, dispatch.Gated

instance (m : MilestoneExecution) : Decidable m.Gated :=
  inferInstanceAs (Decidable (∀ dispatch ∈ m.trace, dispatch.Gated))

/-! ## What writes to the plan leave alone -/

variable (m : MilestoneExecution)

theorem sliceItems_updateSlice (sliceSlug : String)
    (status : SliceStatus) : (m.updateSlice sliceSlug status).sliceItems = m.sliceItems :=
  dependencyItems_modify m.slices sliceSlug _ fun _ ↦ rfl

theorem taskItems_updateSlice (sliceSlug : String)
    (status : SliceStatus) : (m.updateSlice sliceSlug status).taskItems = m.taskItems := by
  funext other
  simp only [taskItems, updateSlice, JsMap.get_modify]
  by_cases hother : other = sliceSlug
  · rw [if_pos hother, hother]
    cases m.slices.get sliceSlug <;> rfl
  · rw [if_neg hother]

theorem outline_updateSlice (sliceSlug : String)
    (status : SliceStatus) : (m.updateSlice sliceSlug status).outline = m.outline := by
  ext1
  · exact sliceItems_updateSlice m sliceSlug status
  · exact taskItems_updateSlice m sliceSlug status
  · rfl
  · rfl

theorem sliceItems_updatePlanTask (sliceSlug taskSlug : String)
    (change : PlanTaskChange) :
    (m.updatePlanTask sliceSlug taskSlug change).sliceItems = m.sliceItems :=
  dependencyItems_modify m.slices sliceSlug _ fun _ ↦ rfl

theorem taskItems_updatePlanTask (sliceSlug taskSlug : String)
    (change : PlanTaskChange) :
    (m.updatePlanTask sliceSlug taskSlug change).taskItems = m.taskItems := by
  funext other
  simp only [taskItems, updatePlanTask, JsMap.get_modify]
  by_cases hother : other = sliceSlug
  · rw [if_pos hother, hother]
    cases m.slices.get sliceSlug with
    | none => rfl
    | some slice => exact dependencyItems_modify slice.planTasks taskSlug _ fun _ ↦ rfl
  · rw [if_neg hother]

theorem outline_updatePlanTask (sliceSlug taskSlug : String)
    (change : PlanTaskChange) :
    (m.updatePlanTask sliceSlug taskSlug change).outline = m.outline := by
  ext1
  · exact sliceItems_updatePlanTask m sliceSlug taskSlug change
  · exact taskItems_updatePlanTask m sliceSlug taskSlug change
  · rfl
  · rfl

theorem sliceOutcome_updateSlice (sliceSlug : String)
    (status : SliceStatus) (other : String) :
    (m.updateSlice sliceSlug status).sliceOutcome other =
      if other = sliceSlug then (m.slices.get sliceSlug).map fun slice ↦
        ({ slice with status := status } : SliceNode).outcome
      else m.sliceOutcome other := by
  simp only [sliceOutcome, updateSlice, JsMap.get_modify]
  split
  · rw [Option.map_map]
    rfl
  · rfl

theorem sliceOutcome_updatePlanTask (sliceSlug taskSlug : String)
    (change : PlanTaskChange) :
    (m.updatePlanTask sliceSlug taskSlug change).sliceOutcome = m.sliceOutcome := by
  funext other
  simp only [sliceOutcome, updatePlanTask, JsMap.get_modify]
  split
  · rename_i hother
    rw [hother]
    cases m.slices.get sliceSlug <;> rfl
  · rfl

theorem planTask_updatePlanTask (sliceSlug taskSlug : String)
    (change : PlanTaskChange) (otherSlice otherTask : String) :
    (m.updatePlanTask sliceSlug taskSlug change).planTask otherSlice otherTask =
      if otherSlice = sliceSlug ∧ otherTask = taskSlug then
        (m.planTask sliceSlug taskSlug).map (·.update change)
      else m.planTask otherSlice otherTask := by
  simp only [planTask, updatePlanTask, JsMap.get_modify]
  by_cases hslice : otherSlice = sliceSlug
  · subst hslice
    cases m.slices.get otherSlice with
    | none => simp
    | some slice =>
      by_cases htask : otherTask = taskSlug <;> simp [JsMap.get_modify, htask]
  · simp [hslice]

/-- A write that leaves the class of a plan task alone leaves all classes alone. -/
theorem taskOutcome_updatePlanTask (sliceSlug taskSlug : String)
    (change : PlanTaskChange)
    (hchange : ∀ node, m.planTask sliceSlug taskSlug = some node →
      (node.update change).outcome = node.outcome) :
    (m.updatePlanTask sliceSlug taskSlug change).taskOutcome = m.taskOutcome := by
  funext otherSlice otherTask
  simp only [taskOutcome, planTask_updatePlanTask]
  split
  · rename_i hother
    rw [hother.1, hother.2]
    cases hnode : m.planTask sliceSlug taskSlug with
    | none => rfl
    | some node =>
      exact congrArg some (hchange node hnode)
  · rfl

/-! ## Dispatching plan tasks -/

/-- A step that dispatches nothing and leaves open what was open. -/
structure Undisturbed (before after : MilestoneExecution) : Prop where
  outline : after.outline = before.outline
  sliceOutcome : after.sliceOutcome = before.sliceOutcome
  taskOutcome : after.taskOutcome = before.taskOutcome
  running : after.run = before.run

theorem Undisturbed.trans {first second third : MilestoneExecution}
    (hfirst : Undisturbed first second) (hsecond : Undisturbed second third) :
    Undisturbed first third where
  outline := hsecond.outline.trans hfirst.outline
  sliceOutcome := hsecond.sliceOutcome.trans hfirst.sliceOutcome
  taskOutcome := hsecond.taskOutcome.trans hfirst.taskOutcome
  running := hsecond.running.trans hfirst.running

theorem undisturbed_updatePlanTask (sliceSlug taskSlug : String)
    (change : PlanTaskChange)
    (hchange : ∀ node, m.planTask sliceSlug taskSlug = some node →
      (node.update change).outcome = node.outcome) :
    Undisturbed m (m.updatePlanTask sliceSlug taskSlug change) where
  outline := outline_updatePlanTask m sliceSlug taskSlug change
  sliceOutcome := sliceOutcome_updatePlanTask m sliceSlug taskSlug change
  taskOutcome := taskOutcome_updatePlanTask m sliceSlug taskSlug change hchange
  running := rfl

/-- The awaited promises of a slice are no part of the outline. -/
theorem outline_modify_started (sliceSlug : String)
    (change : SliceRun → SliceRun) (hchange : ∀ run, (change run).waves = run.waves) :
    { m with started := m.started.modify sliceSlug change }.outline = m.outline := by
  have hwaves (other : String) :
      ((m.started.modify sliceSlug change).get other).map (·.waves) =
        (m.started.get other).map (·.waves) := by
    rw [JsMap.get_modify]
    split
    · rename_i hother
      rw [hother]
      cases m.started.get sliceSlug with
      | none => rfl
      | some run => exact congrArg some (hchange run)
    · rfl
  exact Outline.ext rfl rfl rfl (funext hwaves)

theorem undisturbed_awaitTask (sliceSlug taskSlug : String)
    (taskId : TaskId) : Undisturbed m (m.awaitTask sliceSlug taskSlug taskId) := by
  unfold awaitTask
  split
  · exact ⟨outline_modify_started m sliceSlug _ fun _ ↦ rfl, rfl, rfl, rfl⟩
  · exact ⟨rfl, rfl, rfl, rfl⟩

theorem trace_awaitTask (sliceSlug taskSlug : String)
    (taskId : TaskId) : (m.awaitTask sliceSlug taskSlug taskId).trace = m.trace := by
  unfold awaitTask
  split <;> rfl

theorem undisturbed_executionTask (sliceSlug taskSlug : String)
    (planTask : PlanTaskNode) :
    Undisturbed m (m.executionTask sliceSlug taskSlug planTask).1 := by
  unfold executionTask
  split
  · exact ⟨rfl, rfl, rfl, rfl⟩
  · have hlinked := undisturbed_updatePlanTask
      { m with tasks := m.tasks.insert (m.executionRow sliceSlug taskSlug) } sliceSlug taskSlug
      { executionTaskId := some (.number m.tasks.nextId) } fun _ _ ↦ rfl
    exact ⟨hlinked.outline, hlinked.sliceOutcome, hlinked.taskOutcome, hlinked.running⟩

theorem trace_executionTask (sliceSlug taskSlug : String)
    (planTask : PlanTaskNode) :
    (m.executionTask sliceSlug taskSlug planTask).1.trace = m.trace := by
  unfold executionTask
  split <;> rfl

/-- An open plan task has completed dependencies only. -/
def TaskReady (m : MilestoneExecution) (sliceSlug : String) : String → Prop :=
  Ready (m.taskItems sliceSlug) (m.taskOutcome sliceSlug)

theorem Undisturbed.taskReady_iff {before after : MilestoneExecution}
    (h : Undisturbed before after) (sliceSlug taskSlug : String) :
    after.TaskReady sliceSlug taskSlug ↔ before.TaskReady sliceSlug taskSlug := by
  have hitems : after.taskItems = before.taskItems := congrArg Outline.taskItems h.outline
  unfold TaskReady
  rw [h.taskOutcome, hitems]

theorem needs_taskItems_iff (sliceSlug taskSlug other : String) :
    Needs (m.taskItems sliceSlug) taskSlug other ↔
      ∃ node, m.planTask sliceSlug taskSlug = some node ∧ other ∈ node.depends := by
  unfold taskItems planTask
  cases hslice : m.slices.get sliceSlug with
  | none => simp [Needs]
  | some slice => simp [needs_dependencyItems_iff]

theorem planTaskStatus_eq_completed_iff (sliceSlug taskSlug : String) :
    m.planTaskStatus sliceSlug taskSlug = some .completed ↔
      m.taskOutcome sliceSlug taskSlug = some .completed := by
  unfold planTaskStatus taskOutcome
  cases m.planTask sliceSlug taskSlug with
  | none => simp
  | some node => simp [node.outcome_eq_completed_iff]

/-- The record of a plan task that starts is gated when the task is ready. -/
theorem gated_planTask_iff {m : MilestoneExecution} {sliceSlug taskSlug : String}
    {node : PlanTaskNode} (hnode : m.planTask sliceSlug taskSlug = some node)
    (hopen : node.outcome = .unfinished) :
    (Dispatch.planTask sliceSlug taskSlug
        (node.depends.map (m.planTaskStatus sliceSlug))).Gated ↔
      m.TaskReady sliceSlug taskSlug := by
  apply forall_completed_iff_ready
  · rw [taskOutcome, hnode, Option.map_some, hopen]
  · simp only [needs_taskItems_iff, hnode, Option.some.injEq, exists_eq_left', implies_true]
  · exact m.planTaskStatus_eq_completed_iff sliceSlug

/-- The execution of a plan task disturbs nothing, and it is gated if the task was ready. -/
theorem executePlanTask_spec (sliceSlug taskSlug : String) :
    Undisturbed m (m.executePlanTask sliceSlug taskSlug) ∧
      ((m.executePlanTask sliceSlug taskSlug).Gated ↔
        m.Gated ∧ m.TaskReady sliceSlug taskSlug) := by
  have hsame : Undisturbed m m := ⟨rfl, rfl, rfl, rfl⟩
  unfold executePlanTask
  cases hnode : m.planTask sliceSlug taskSlug with
  | none =>
    have hready : m.TaskReady sliceSlug taskSlug := by
      intro houtcome
      simp [taskOutcome, hnode] at houtcome
    exact ⟨hsame, (and_iff_left hready).symm⟩
  | some node =>
    have houtcome : m.taskOutcome sliceSlug taskSlug = some node.outcome := by
      rw [taskOutcome, hnode]
      rfl
    by_cases hfinished : node.status = .completed ∨ node.status = .failed
    · have hready : m.TaskReady sliceSlug taskSlug := by
        intro hopen
        rw [houtcome] at hopen
        exact absurd hfinished (node.outcome_eq_unfinished_iff.mp (Option.some.inj hopen))
      simp only [if_pos hfinished]
      exact ⟨hsame, (and_iff_left hready).symm⟩
    · simp only [if_neg hfinished]
      have hopen : node.outcome = .unfinished := node.outcome_eq_unfinished_iff.mpr hfinished
      constructor
      · refine Undisturbed.trans ?_ ((undisturbed_executionTask _ sliceSlug taskSlug node).trans
          (undisturbed_awaitTask _ sliceSlug taskSlug _))
        have hactive : Undisturbed { m with trace := _ } _ :=
          undisturbed_updatePlanTask { m with trace := _ } sliceSlug taskSlug
            { status := some .active } (by
              intro found hfound
              have hfound' : m.planTask sliceSlug taskSlug = some found := hfound
              rw [hnode] at hfound'
              rw [← Option.some.inj hfound', hopen]
              rfl)
        exact ⟨hactive.outline, hactive.sliceOutcome, hactive.taskOutcome, hactive.running⟩
      · unfold Gated
        rw [trace_awaitTask, trace_executionTask]
        change (∀ dispatch ∈ _ :: m.trace, dispatch.Gated) ↔ _
        rw [List.forall_mem_cons, and_comm]
        exact and_congr_right fun _ ↦ gated_planTask_iff hnode hopen

/-- The dispatch of a wave of plan tasks. -/
theorem executeWave_spec (sliceSlug : String) (ids : List String) :
    Undisturbed m (ids.foldl (fun m taskSlug ↦ m.executePlanTask sliceSlug taskSlug) m) ∧
      ((ids.foldl (fun m taskSlug ↦ m.executePlanTask sliceSlug taskSlug) m).Gated ↔
        m.Gated ∧ ∀ taskSlug ∈ ids, m.TaskReady sliceSlug taskSlug) := by
  constructor
  · induction ids generalizing m with
    | nil => exact ⟨rfl, rfl, rfl, rfl⟩
    | cons taskSlug ids ih => exact (executePlanTask_spec m sliceSlug taskSlug).1.trans (ih _)
  · exact @foldl_dispatch_iff _ _ _ (fun _ ↦ True) Gated
      (fun m taskSlug ↦ m.TaskReady sliceSlug taskSlug) (fun _ _ _ ↦ trivial)
      (fun m taskSlug _ ↦ (executePlanTask_spec m sliceSlug taskSlug).2)
      (fun m taskSlug other _ ↦
        (executePlanTask_spec m sliceSlug taskSlug).1.taskReady_iff sliceSlug other) ids m trivial

/-! ## Advancing a slice -/

/-- Waves are computed once and only dropped from the front, so the rest stays layered. -/
theorem Ordered.set_taskWaves {m : MilestoneExecution} (h : m.outline.Ordered) (sliceSlug : String)
    (run : SliceRun) (hrun : Layered (Needs (m.taskItems sliceSlug)) (run.waves.map (·.ids))) :
    { m with started := m.started.set sliceSlug run }.outline.Ordered where
  sliceLevel := h.sliceLevel
  taskLevel := h.taskLevel
  sliceWaves := h.sliceWaves
  taskWaves other waves hwaves := by
    change ((m.started.set sliceSlug run).get other).map (·.waves) = some waves at hwaves
    rw [JsMap.get_set] at hwaves
    split at hwaves
    · rename_i hother
      rw [hother, ← Option.some.inj hwaves]
      exact hrun
    · exact h.taskWaves other waves hwaves

theorem ordered_finishSlice {m : MilestoneExecution} (h : m.outline.Ordered)
    (sliceSlug : String) : (m.finishSlice sliceSlug).outline.Ordered := by
  rw [finishSlice, outline_updateSlice]
  refine ⟨h.sliceLevel, h.taskLevel, h.sliceWaves, ?_⟩
  intro other waves hwaves
  change ((m.started.delete sliceSlug).get other).map (·.waves) = some waves at hwaves
  rw [JsMap.get_delete] at hwaves
  split at hwaves
  · cases hwaves
  · exact h.taskWaves other waves hwaves

/-- The loop of a slice goes on to a wave. -/
theorem advanceSlice_wave {m : MilestoneExecution} {sliceSlug : String} {run : SliceRun}
    (hget : m.started.get sliceSlug = some run) (hawaited : run.awaited.entries = [])
    (hrunning : m.run.running = true) {wave : Wave String} {rest : List (Wave String)}
    (hwaves : run.waves = wave :: rest) :
    m.advanceSlice sliceSlug =
      wave.ids.foldl (fun m taskSlug ↦ m.executePlanTask sliceSlug taskSlug)
        { m with started := m.started.set sliceSlug { waves := rest } } := by
  simp only [advanceSlice, hget, hawaited, hwaves, hrunning, ne_eq, not_true_eq_false, if_false,
    if_true]

/-- The loop of a slice does anything else. -/
theorem advanceSlice_other {m : MilestoneExecution} {sliceSlug : String}
    (hother : ∀ run, m.started.get sliceSlug = some run → run.awaited.entries = [] →
      m.run.running = true → run.waves = []) :
    m.advanceSlice sliceSlug = m ∨ m.advanceSlice sliceSlug = m.finishSlice sliceSlug := by
  unfold advanceSlice
  cases hget : m.started.get sliceSlug with
  | none => exact Or.inl rfl
  | some run =>
    by_cases hawaited : run.awaited.entries = []
    · cases hwaves : run.waves with
      | nil => simp [hawaited, hwaves]
      | cons wave rest =>
        cases hrunning : m.run.running with
        | false => simp [hawaited, hwaves]
        | true =>
          have hnil := hother run hget hawaited hrunning
          rw [hwaves] at hnil
          cases hnil
    · simp [hawaited]

/-- The next wave of a loop that is about to go on, by slice. -/
def SliceKeepsGate (m : MilestoneExecution) (sliceSlug : String) : Prop :=
  match m.started.get sliceSlug with
  | none => True
  | some run =>
    run.awaited.entries = [] → m.run.running = true →
      NoneLeftBehind (m.taskItems sliceSlug) (m.taskOutcome sliceSlug) run.waves

instance decidableSliceKeepsGate (m : MilestoneExecution) (sliceSlug : String) :
    Decidable (m.SliceKeepsGate sliceSlug) :=
  match hget : m.started.get sliceSlug with
  | none => isTrue (by rw [SliceKeepsGate, hget]; trivial)
  | some run =>
    decidable_of_iff (run.awaited.entries = [] → m.run.running = true →
      NoneLeftBehind (m.taskItems sliceSlug) (m.taskOutcome sliceSlug) run.waves)
      (by rw [SliceKeepsGate, hget])

theorem advanceSlice_spec {m : MilestoneExecution} (h : m.outline.Ordered) (sliceSlug : String) :
    (m.advanceSlice sliceSlug).outline.Ordered ∧
      ((m.advanceSlice sliceSlug).Gated ↔ m.Gated ∧ m.SliceKeepsGate sliceSlug) := by
  by_cases hother : ∀ run, m.started.get sliceSlug = some run → run.awaited.entries = [] →
      m.run.running = true → run.waves = []
  · have hkeeps : m.SliceKeepsGate sliceSlug := by
      unfold SliceKeepsGate
      cases hget : m.started.get sliceSlug with
      | none => trivial
      | some run =>
        intro hawaited hrunning
        rw [hother run hget hawaited hrunning]
        trivial
    rcases advanceSlice_other hother with hsame | hfinish
    · rw [hsame]
      exact ⟨h, (and_iff_left hkeeps).symm⟩
    · rw [hfinish]
      exact ⟨ordered_finishSlice h sliceSlug, (and_iff_left hkeeps).symm⟩
  · push Not at hother
    obtain ⟨run, hget, hawaited, hrunning, hne⟩ := hother
    obtain ⟨wave, rest, hwaves⟩ := List.exists_cons_of_ne_nil hne
    have hlayered : Layered (Needs (m.taskItems sliceSlug)) ((wave :: rest).map (·.ids)) := by
      apply h.taskWaves sliceSlug
      change (m.started.get sliceSlug).map (·.waves) = _
      rw [hget, ← hwaves]
      rfl
    have hspec := executeWave_spec
      { m with started := m.started.set sliceSlug { waves := rest } } sliceSlug wave.ids
    rw [advanceSlice_wave hget hawaited hrunning hwaves]
    constructor
    · rw [hspec.1.outline]
      exact Ordered.set_taskWaves h sliceSlug { waves := rest } hlayered.2
    · have hkeeps : m.SliceKeepsGate sliceSlug ↔
          ∀ taskSlug ∈ wave.ids, m.TaskReady sliceSlug taskSlug := by
        simp only [SliceKeepsGate, hget, hawaited, hrunning, hwaves, forall_true_left]
        exact noneLeftBehind_cons_iff hlayered
      rw [hkeeps]
      exact hspec.2

/-! ## Starting slices -/

/-- An open slice has completed dependencies only. -/
def SliceReady (m : MilestoneExecution) : String → Prop := Ready m.sliceItems m.sliceOutcome

/-- A step that leaves the slice level alone: it may start a slice that was open already. -/
structure LevelKept (before after : MilestoneExecution) : Prop where
  sliceItems : after.sliceItems = before.sliceItems
  sliceOutcome : after.sliceOutcome = before.sliceOutcome
  running : after.run = before.run

theorem LevelKept.trans {first second third : MilestoneExecution}
    (hfirst : LevelKept first second) (hsecond : LevelKept second third) :
    LevelKept first third where
  sliceItems := hsecond.sliceItems.trans hfirst.sliceItems
  sliceOutcome := hsecond.sliceOutcome.trans hfirst.sliceOutcome
  running := hsecond.running.trans hfirst.running

/-- An open slice becomes `active`, or stays it. -/
theorem levelKept_updateSlice_active {m : MilestoneExecution} {sliceSlug : String}
    (hopen : ∀ slice, m.slices.get sliceSlug = some slice → slice.outcome = .unfinished) :
    LevelKept m (m.updateSlice sliceSlug .active) where
  sliceItems := sliceItems_updateSlice m sliceSlug .active
  sliceOutcome := by
    funext other
    rw [sliceOutcome_updateSlice]
    split
    · rename_i hother
      rw [hother, sliceOutcome]
      cases hslice : m.slices.get sliceSlug with
      | none => rfl
      | some slice =>
        have houtcome : slice.outcome = .unfinished := hopen slice hslice
        exact congrArg some houtcome.symm
    · rfl
  running := rfl

/-- A slice that gets no waves has no plan tasks. -/
theorem planTaskStatuses_eq_nil {m : MilestoneExecution} {sliceSlug : String}
    (hnil : computeWaves (m.taskItems sliceSlug) = []) : m.planTaskStatuses sliceSlug = [] := by
  unfold planTaskStatuses
  unfold taskItems at hnil
  cases hslice : m.slices.get sliceSlug with
  | none => rfl
  | some slice =>
    rw [hslice] at hnil
    have hcovered := mem_computeWaves_iff
      (@dependencyItems_nodup _ PlanTaskNode.depends slice.planTasks)
    simp only [hnil] at hcovered
    have hentries : slice.planTasks.entries = [] := by
      apply List.eq_nil_iff_forall_not_mem.mpr
      intro entry hentry
      have hmem := (hcovered entry.1).mpr (List.mem_map.mpr
        ⟨_, List.mem_map.mpr ⟨entry, hentry, rfl⟩, rfl⟩)
      cases hmem
    simp [hentries]

/-- The first step of a slice that has just been entered keeps the slice level. -/
theorem levelKept_advanceSlice {m : MilestoneExecution} {sliceSlug : String}
    (hget : m.started.get sliceSlug = some { waves := computeWaves (m.taskItems sliceSlug) })
    (hrunning : m.run.running = true)
    (hopen : ∀ slice, m.slices.get sliceSlug = some slice → slice.outcome = .unfinished) :
    LevelKept m (m.advanceSlice sliceSlug) := by
  cases hwaves : computeWaves (m.taskItems sliceSlug) with
  | nil =>
    have hfinish : m.advanceSlice sliceSlug =
        { m with started := m.started.delete sliceSlug }.updateSlice sliceSlug .active := by
      have hstatus : executeSliceStatus (m.planTaskStatuses sliceSlug) = .active := by
        rw [planTaskStatuses_eq_nil hwaves]
        rfl
      simp [advanceSlice, hget, hwaves, JsMap.empty, finishSlice, hstatus]
    rw [hfinish]
    have hkept := @levelKept_updateSlice_active
      { m with started := m.started.delete sliceSlug } sliceSlug hopen
    exact ⟨hkept.sliceItems, hkept.sliceOutcome, hkept.running⟩
  | cons wave rest =>
    have hspec := (executeWave_spec
      { m with started := m.started.set sliceSlug { waves := rest } } sliceSlug wave.ids).1
    rw [advanceSlice_wave hget rfl hrunning hwaves]
    exact ⟨congrArg Outline.sliceItems hspec.outline, hspec.sliceOutcome, hspec.running⟩

theorem needs_sliceItems_iff (sliceSlug other : String) :
    Needs m.sliceItems sliceSlug other ↔
      ∃ slice, m.slices.get sliceSlug = some slice ∧ other ∈ slice.depends :=
  needs_dependencyItems_iff m.slices sliceSlug other

theorem sliceStatus_eq_completed_iff (sliceSlug : String) :
    m.sliceStatus sliceSlug = some .completed ↔ m.sliceOutcome sliceSlug = some .completed := by
  unfold sliceStatus sliceOutcome
  cases m.slices.get sliceSlug with
  | none => simp
  | some slice => simp [slice.outcome_eq_completed_iff]

/-- The record of a slice that starts is gated when the slice is ready. -/
theorem gated_slice_iff {m : MilestoneExecution} {sliceSlug : String} {slice : SliceNode}
    (hslice : m.slices.get sliceSlug = some slice) (hopen : slice.outcome = .unfinished) :
    (Dispatch.slice sliceSlug (slice.depends.map m.sliceStatus)).Gated ↔
      m.SliceReady sliceSlug := by
  apply forall_completed_iff_ready
  · rw [sliceOutcome, hslice, Option.map_some, hopen]
  · simp only [needs_sliceItems_iff, hslice, Option.some.injEq, exists_eq_left', implies_true]
  · exact m.sliceStatus_eq_completed_iff

theorem taskItems_nodup (sliceSlug : String) :
    ((m.taskItems sliceSlug).map (·.id)).Nodup := by
  unfold taskItems
  split
  · exact List.nodup_nil
  · exact dependencyItems_nodup _

/-- The slice is active, and its loop has all its waves to come. -/
def enterSlice (m : MilestoneExecution) (sliceSlug : String) (slice : SliceNode) :
    MilestoneExecution :=
  let active := { m with
    trace := .slice sliceSlug (slice.depends.map m.sliceStatus) :: m.trace }.updateSlice
      sliceSlug .active
  { active with
    started := active.started.set sliceSlug
      { waves := computeWaves (active.taskItems sliceSlug) } }

section

variable {m : MilestoneExecution} {sliceSlug : String} {slice : SliceNode}

theorem executeSlice_of_open (hslice : m.slices.get sliceSlug = some slice)
    (hopen : slice.outcome = .unfinished) :
    m.executeSlice sliceSlug = (m.enterSlice sliceSlug slice).advanceSlice sliceSlug := by
  have hunfinished := slice.outcome_eq_unfinished_iff.mp hopen
  simp only [executeSlice, hslice, if_neg hunfinished, enterSlice]

theorem levelKept_enterSlice (hslice : m.slices.get sliceSlug = some slice)
    (hopen : slice.outcome = .unfinished) : LevelKept m (m.enterSlice sliceSlug slice) := by
  have hactive := @levelKept_updateSlice_active { m with trace := _ } sliceSlug
    fun found hfound ↦ by
      have hsame : some slice = some found := hslice.symm.trans hfound
      rw [← Option.some.inj hsame]
      exact hopen
  exact ⟨hactive.sliceItems, hactive.sliceOutcome, hactive.running⟩

theorem ordered_enterSlice (h : m.outline.Ordered) (sliceSlug : String) (slice : SliceNode) :
    (m.enterSlice sliceSlug slice).outline.Ordered := by
  have hactive (trace : List Dispatch) :
      ({ m with trace := trace }.updateSlice sliceSlug .active).outline.Ordered := by
    rw [outline_updateSlice]
    exact h
  apply Ordered.set_taskWaves (hactive _)
  exact computeWaves_layered (taskItems_nodup _ sliceSlug) ((hactive _).taskLevel sliceSlug)

theorem get_enterSlice : (m.enterSlice sliceSlug slice).started.get sliceSlug =
    some { waves := computeWaves ((m.enterSlice sliceSlug slice).taskItems sliceSlug) } :=
  JsMap.get_set_self _ _ _

/-- The first plan tasks of a slice depend on nothing. -/
theorem sliceKeepsGate_enterSlice (h : m.outline.Ordered) :
    (m.enterSlice sliceSlug slice).SliceKeepsGate sliceSlug := by
  unfold SliceKeepsGate
  rw [get_enterSlice]
  intro _ _
  exact noneLeftBehind_computeWaves (taskItems_nodup _ sliceSlug)
    ((ordered_enterSlice h sliceSlug slice).taskLevel sliceSlug) _

end

/-- Starting a slice keeps the waves layered and the slice level as it is, and it is gated exactly
when the slice is ready: its first plan tasks depend on nothing. -/
theorem executeSlice_spec {m : MilestoneExecution} (h : m.outline.Ordered)
    (hrunning : m.run.running = true) (sliceSlug : String) :
    (m.executeSlice sliceSlug).outline.Ordered ∧ LevelKept m (m.executeSlice sliceSlug) ∧
      ((m.executeSlice sliceSlug).Gated ↔ m.Gated ∧ m.SliceReady sliceSlug) := by
  have hsame : LevelKept m m := ⟨rfl, rfl, rfl⟩
  cases hslice : m.slices.get sliceSlug with
  | none =>
    have hready : m.SliceReady sliceSlug := by
      intro houtcome
      simp [sliceOutcome, hslice] at houtcome
    simp only [executeSlice, hslice]
    exact ⟨h, hsame, (and_iff_left hready).symm⟩
  | some slice =>
    by_cases hfinished : slice.status = .completed ∨ slice.status = .failed
    · have hready : m.SliceReady sliceSlug := by
        intro hopen
        rw [sliceOutcome, hslice] at hopen
        exact absurd hfinished (slice.outcome_eq_unfinished_iff.mp (Option.some.inj hopen))
      simp only [executeSlice, hslice, if_pos hfinished]
      exact ⟨h, hsame, (and_iff_left hready).symm⟩
    · have hopen : slice.outcome = .unfinished := slice.outcome_eq_unfinished_iff.mpr hfinished
      have hentry := levelKept_enterSlice hslice hopen
      have hadvance := advanceSlice_spec (ordered_enterSlice h sliceSlug slice) sliceSlug
      rw [executeSlice_of_open hslice hopen]
      refine ⟨hadvance.1, hentry.trans ?_, ?_⟩
      · apply levelKept_advanceSlice get_enterSlice hrunning
        intro found hfound
        have houtcome := congrFun hentry.sliceOutcome sliceSlug
        rw [sliceOutcome, sliceOutcome, hfound, hslice, Option.map_some, Option.map_some,
          hopen] at houtcome
        exact Option.some.inj houtcome
      · calc ((m.enterSlice sliceSlug slice).advanceSlice sliceSlug).Gated
            ↔ (m.enterSlice sliceSlug slice).Gated ∧
                (m.enterSlice sliceSlug slice).SliceKeepsGate sliceSlug := hadvance.2
          _ ↔ (m.enterSlice sliceSlug slice).Gated := and_iff_left (sliceKeepsGate_enterSlice h)
          _ ↔ (Dispatch.slice sliceSlug (slice.depends.map m.sliceStatus)).Gated ∧ m.Gated :=
              List.forall_mem_cons
          _ ↔ m.Gated ∧ m.SliceReady sliceSlug := by
              rw [gated_slice_iff hslice hopen, and_comm]

/-! ## Advancing the milestone -/

/-- Drop a wave of slices. -/
theorem Ordered.tail_sliceWaves {m : MilestoneExecution} (h : m.outline.Ordered)
    {wave : Wave String} {rest : List (Wave String)} (hwaves : m.waves = wave :: rest) :
    { m with waves := rest }.outline.Ordered where
  sliceLevel := h.sliceLevel
  taskLevel := h.taskLevel
  sliceWaves := by
    have hlayered : Layered (Needs m.sliceItems) (m.waves.map (·.ids)) := h.sliceWaves
    rw [hwaves] at hlayered
    exact hlayered.2
  taskWaves := h.taskWaves

/-- The next wave of the loop over the slices. -/
def MilestoneKeepsGate (m : MilestoneExecution) : Prop :=
  m.returned = false → m.started.entries = [] → m.run.running = true →
    NoneLeftBehind m.sliceItems m.sliceOutcome m.waves

instance decidableMilestoneKeepsGate (m : MilestoneExecution) : Decidable m.MilestoneKeepsGate :=
  inferInstanceAs (Decidable (m.returned = false → m.started.entries = [] →
    m.run.running = true → NoneLeftBehind m.sliceItems m.sliceOutcome m.waves))

/-- A wave of slices is started. -/
theorem executeSlices_spec {m : MilestoneExecution} (h : m.outline.Ordered)
    (hrunning : m.run.running = true) (ids : List String) :
    (ids.foldl executeSlice m).outline.Ordered ∧
      ((ids.foldl executeSlice m).Gated ↔ m.Gated ∧ ∀ sliceSlug ∈ ids, m.SliceReady sliceSlug) := by
  have hstep (m : MilestoneExecution) (sliceSlug : String)
      (h : m.outline.Ordered ∧ m.run.running = true) :
      (m.executeSlice sliceSlug).outline.Ordered ∧
        (m.executeSlice sliceSlug).run.running = true := by
    have hspec := executeSlice_spec h.1 h.2 sliceSlug
    refine ⟨hspec.1, ?_⟩
    rw [hspec.2.1.running]
    exact h.2
  constructor
  · exact (run_preserves (fun m sliceSlug ↦ hstep m sliceSlug) ⟨h, hrunning⟩ ids).1
  · exact @foldl_dispatch_iff _ _ _ (fun m ↦ m.outline.Ordered ∧ m.run.running = true) Gated
      SliceReady hstep (fun m sliceSlug h ↦ (executeSlice_spec h.1 h.2 sliceSlug).2.2)
      (fun m sliceSlug other h ↦ by
        have hkept := (executeSlice_spec h.1 h.2 sliceSlug).2.1
        unfold SliceReady
        rw [hkept.sliceItems, hkept.sliceOutcome]) ids m ⟨h, hrunning⟩

theorem advanceMilestone_spec {m : MilestoneExecution} (h : m.outline.Ordered) :
    m.advanceMilestone.outline.Ordered ∧
      (m.advanceMilestone.Gated ↔ m.Gated ∧ m.MilestoneKeepsGate) := by
  by_cases hwaiting : m.returned ∨ m.started.entries ≠ []
  · have hkeeps : m.MilestoneKeepsGate := by
      intro hreturned hstarted
      simp [hreturned, hstarted] at hwaiting
    rw [advanceMilestone, if_pos hwaiting]
    exact ⟨h, (and_iff_left hkeeps).symm⟩
  · rw [advanceMilestone, if_neg hwaiting]
    cases hwaves : m.waves with
    | nil =>
      have hkeeps : m.MilestoneKeepsGate := by
        intro _ _ _
        rw [hwaves]
        trivial
      exact ⟨h, (and_iff_left hkeeps).symm⟩
    | cons wave rest =>
      cases hrunning : m.run.running with
      | false =>
        have hkeeps : m.MilestoneKeepsGate := by
          intro _ _ hrun
          rw [hrunning] at hrun
          cases hrun
        exact ⟨h, (and_iff_left hkeeps).symm⟩
      | true =>
        have hlayered : Layered (Needs m.sliceItems) ((wave :: rest).map (·.ids)) := by
          rw [← hwaves]
          exact h.sliceWaves
        have hspec := @executeSlices_spec { m with waves := rest }
          (Ordered.tail_sliceWaves h hwaves) hrunning wave.ids
        have hkeeps : m.MilestoneKeepsGate ↔ ∀ sliceSlug ∈ wave.ids, m.SliceReady sliceSlug := by
          simp only [not_or, Bool.not_eq_true, not_not] at hwaiting
          simp only [MilestoneKeepsGate, hwaiting.1, hwaiting.2, hrunning, hwaves,
            forall_true_left]
          exact noneLeftBehind_cons_iff hlayered
        rw [hkeeps]
        exact hspec

/-! ## Everything else -/

/-- A step that dispatches nothing and leaves the loops alone. -/
structure Quiet (before after : MilestoneExecution) : Prop where
  outline : after.outline = before.outline
  trace : after.trace = before.trace

namespace Quiet

variable (m : MilestoneExecution)

theorem refl : Quiet m m := ⟨rfl, rfl⟩

theorem trans {first second third : MilestoneExecution} (hfirst : Quiet first second)
    (hsecond : Quiet second third) : Quiet first third where
  outline := hsecond.outline.trans hfirst.outline
  trace := hsecond.trace.trans hfirst.trace

theorem updatePlanTask (sliceSlug taskSlug : String)
    (change : PlanTaskChange) : Quiet m (m.updatePlanTask sliceSlug taskSlug change) :=
  ⟨outline_updatePlanTask m sliceSlug taskSlug change, rfl⟩

theorem updateSlice (sliceSlug : String) (status : SliceStatus) :
    Quiet m (m.updateSlice sliceSlug status) :=
  ⟨outline_updateSlice m sliceSlug status, rfl⟩

theorem unawait (sliceSlug taskSlug : String) :
    Quiet m (m.unawait sliceSlug taskSlug) :=
  ⟨outline_modify_started m sliceSlug _ fun _ ↦ rfl, rfl⟩

theorem settleFromStatus (sliceSlug taskSlug : String)
    (status : TaskStatus) : Quiet m (m.settleFromStatus sliceSlug taskSlug status) := by
  have hwritten (change : PlanTaskChange) :
      Quiet m ((m.unawait sliceSlug taskSlug).updatePlanTask sliceSlug taskSlug change) :=
    (unawait m sliceSlug taskSlug).trans (updatePlanTask _ sliceSlug taskSlug change)
  cases status with
  | done | failed | cancelled | timedOut => exact hwritten _
  | queued | running | waitingForInput | pendingApproval | rateLimited => exact refl m

theorem onTerminal (sliceSlug taskSlug : String) (status : TaskStatus) :
    Quiet m (m.onTerminal sliceSlug taskSlug status) := by
  unfold MilestoneExecution.onTerminal
  split
  · exact settleFromStatus m sliceSlug taskSlug status
  · exact unawait m sliceSlug taskSlug

theorem emit (taskId : TaskId) (status : TaskStatus) :
    Quiet m (m.emit taskId status) := by
  apply run_preserves (fun current listener hcurrent ↦ ?_) (refl m)
  exact hcurrent.trans (onTerminal current listener.1 listener.2 status)

theorem staleCheck (sliceSlug taskSlug : String) :
    Quiet m (m.staleCheck sliceSlug taskSlug) := by
  unfold MilestoneExecution.staleCheck
  split
  · exact refl m
  · split
    · exact unawait m sliceSlug taskSlug
    · split
      · exact settleFromStatus m sliceSlug taskSlug _
      · exact unawait m sliceSlug taskSlug

theorem stop : Quiet m m.stop := by
  have hwaves (sliceSlug : String) :
      (m.stop.started.get sliceSlug).map (·.waves) = (m.started.get sliceSlug).map (·.waves) := by
    change ((m.started.mapWithKey _).get sliceSlug).map _ = _
    rw [JsMap.get_mapWithKey, Option.map_map]
    rfl
  exact ⟨Outline.ext rfl rfl rfl (funext hwaves), rfl⟩

theorem aggregateSlice (sliceSlug : String) :
    Quiet m (m.aggregateSlice sliceSlug) := by
  unfold MilestoneExecution.aggregateSlice
  split
  · exact refl m
  · rename_i current _
    have hwritten := updateSlice m sliceSlug
      (aggregateSliceStatus (m.planTaskStatuses sliceSlug) current)
    dsimp only
    split
    · exact ⟨hwritten.outline, hwritten.trace⟩
    · exact hwritten

theorem syncPlanFromExecutionTask (taskId : TaskId)
    (location : Option (String × String)) :
    Quiet m (m.syncPlanFromExecutionTask taskId location) := by
  unfold MilestoneExecution.syncPlanFromExecutionTask
  split
  · split
    · have hwritten (sliceSlug taskSlug : String) (change : PlanTaskChange) :
          Quiet m ((m.updatePlanTask sliceSlug taskSlug change).aggregateSlice sliceSlug) :=
        (updatePlanTask m sliceSlug taskSlug change).trans (aggregateSlice _ sliceSlug)
      dsimp only
      split
      · exact (hwritten _ _ _).trans (emit _ taskId _)
      · exact hwritten _ _ _
    · exact refl m
  · exact refl m

theorem repointPlanTask (location : Option (String × String))
    (newTaskId : TaskId) : Quiet m (m.repointPlanTask location newTaskId) := by
  unfold MilestoneExecution.repointPlanTask
  split
  · exact refl m
  · split
    · exact refl m
    · exact (updatePlanTask m _ _ _).trans (aggregateSlice _ _)

end Quiet

/-! ## Runs -/

/-- When a loop goes on to its next wave, the items behind it on which an open item of that wave
depends are completed. -/
def KeepsGate (m : MilestoneExecution) : MilestoneEvent → Prop
  | .advanceSlice sliceSlug => m.SliceKeepsGate sliceSlug
  | .advanceMilestone => m.MilestoneKeepsGate
  | .staleCheck _ _ | .stop | .syncPlanFromExecutionTask _ _ | .repointPlanTask _ _ | .insertTask _
  | .updateTask _ _ | .updatePlanTask _ _ _ | .updateSlice _ _ => True

instance decidableKeepsGate (m : MilestoneExecution) : ∀ event, Decidable (m.KeepsGate event)
  | .advanceSlice sliceSlug => decidableSliceKeepsGate m sliceSlug
  | .advanceMilestone => decidableMilestoneKeepsGate m
  | .staleCheck _ _ | .stop | .syncPlanFromExecutionTask _ _ | .repointPlanTask _ _ | .insertTask _
  | .updateTask _ _ | .updatePlanTask _ _ _ | .updateSlice _ _ => inferInstanceAs (Decidable True)

theorem quiet_step {event : MilestoneEvent}
    (hslice : ∀ sliceSlug, event ≠ .advanceSlice sliceSlug) (hmilestone : event ≠ .advanceMilestone) :
    Quiet m (m.step event) := by
  cases event with
  | advanceSlice sliceSlug => exact absurd rfl (hslice sliceSlug)
  | advanceMilestone => exact absurd rfl hmilestone
  | staleCheck sliceSlug taskSlug => exact .staleCheck m sliceSlug taskSlug
  | stop => exact .stop m
  | syncPlanFromExecutionTask taskId location => exact .syncPlanFromExecutionTask m taskId location
  | repointPlanTask location newTaskId => exact .repointPlanTask m location newTaskId
  | insertTask row => exact ⟨rfl, rfl⟩
  | updateTask taskId status => exact ⟨rfl, rfl⟩
  | updatePlanTask sliceSlug taskSlug change => exact .updatePlanTask m sliceSlug taskSlug change
  | updateSlice sliceSlug status => exact .updateSlice m sliceSlug status

/-- One step keeps the waves layered, and it is gated exactly when it keeps the gate. -/
theorem step_spec {m : MilestoneExecution} (h : m.outline.Ordered) (event : MilestoneEvent) :
    (m.step event).outline.Ordered ∧ ((m.step event).Gated ↔ m.Gated ∧ m.KeepsGate event) := by
  have hquiet (hslice : ∀ sliceSlug, event ≠ .advanceSlice sliceSlug)
      (hmilestone : event ≠ .advanceMilestone) (hkeeps : m.KeepsGate event) :
      (m.step event).outline.Ordered ∧
        ((m.step event).Gated ↔ m.Gated ∧ m.KeepsGate event) := by
    have hstep := quiet_step m hslice hmilestone
    constructor
    · rw [hstep.outline]
      exact h
    · rw [Gated, hstep.trace]
      exact (and_iff_left hkeeps).symm
  cases event with
  | advanceSlice sliceSlug => exact advanceSlice_spec h sliceSlug
  | advanceMilestone => exact advanceMilestone_spec h
  | staleCheck | stop | syncPlanFromExecutionTask | repointPlanTask | insertTask | updateTask
  | updatePlanTask | updateSlice => exact hquiet (by simp) (by simp) trivial

/-- The first wave of slices depends on nothing. -/
theorem executeMilestone_spec (state : AutoExecutorState) {slices : JsMap String SliceNode}
    (hslices : WellFormedTree slices) (tasks : TaskTable) :
    (executeMilestone state slices tasks).outline.Ordered ∧
      (executeMilestone state slices tasks).Gated := by
  let entered : MilestoneExecution :=
    { run := ⟨state, true⟩
      milestoneStatus := .active
      slices := slices
      tasks := tasks
      waves := computeWaves (dependencyItems SliceNode.depends slices) }
  have hordered : entered.outline.Ordered := by
    refine ⟨hslices.sliceLevel, ?_, ?_, ?_⟩
    · intro sliceSlug
      change WellFormed (entered.taskItems sliceSlug)
      unfold taskItems
      cases hslice : entered.slices.get sliceSlug with
      | none => exact wellFormed_nil
      | some slice => exact hslices.taskLevel sliceSlug slice hslice
    · exact computeWaves_layered (dependencyItems_nodup slices) hslices.sliceLevel
    · intro sliceSlug waves hwaves
      cases hwaves
  have hkeeps : entered.MilestoneKeepsGate := by
    intro _ _ _
    exact noneLeftBehind_computeWaves (dependencyItems_nodup slices) hslices.sliceLevel _
  have hgated : entered.Gated := by
    intro dispatch hdispatch
    cases hdispatch
  have hspec := advanceMilestone_spec hordered
  exact ⟨hspec.1, hspec.2.mpr ⟨hgated, hkeeps⟩⟩

end MilestoneExecution

open MilestoneExecution

/-- The executions of a well-formed milestone that dispatch on completed dependencies throughout
are those that leave no dependency of an open item behind uncompleted. -/
theorem dependencies_gate_dispatch (state : AutoExecutorState) (slices : JsMap String SliceNode)
    (hslices : WellFormedTree slices) (tasks : TaskTable) (events : List MilestoneEvent) :
    (∀ before, before <+: events →
      (run step (executeMilestone state slices tasks) before).Gated) ↔
    Disciplined step KeepsGate (executeMilestone state slices tasks) events := by
  have hstep (m : MilestoneExecution) (event : MilestoneEvent)
      (hm : m.outline.Ordered ∧ m.Gated) (hkeeps : m.KeepsGate event) :
      (m.step event).outline.Ordered ∧ (m.step event).Gated := by
    have hspec := step_spec hm.1 event
    exact ⟨hspec.1, hspec.2.mpr ⟨hm.2, hkeeps⟩⟩
  have hexact (m : MilestoneExecution) (event : MilestoneEvent)
      (hm : m.outline.Ordered ∧ m.Gated) (hgated : (m.step event).Gated) : m.KeepsGate event :=
    ((step_spec hm.1 event).2.mp hgated).2
  exact disciplined_iff_good hstep (fun m hm ↦ hm.2) hexact
    (executeMilestone_spec state hslices tasks) events

/-! ## A slice of two plan tasks, and a slice that depends on it -/

/-- `02-b` depends on `01-a`. -/
def pairSlice : SliceNode where
  planTasks := (JsMap.empty.set "01-a" {}).set "02-b" { depends := ["01-a"] }

def singleSlice : SliceNode where
  depends := ["01-api"]
  planTasks := JsMap.empty.set "01-c" {}

def pairSlices : JsMap String SliceNode := (JsMap.empty.set "01-api" pairSlice).set "02-ui" singleSlice

def pairState : AutoExecutorState where
  run := 0
  projectId := 1
  projectPath := "/app"
  milestoneSlug := "01-core"

theorem wellFormedTree_pairSlices : WellFormedTree pairSlices where
  sliceLevel := wellFormed_of_rank (fun slug ↦ if slug = "02-ui" then 1 else 0) (by decide)
  taskLevel sliceSlug slice hslice := by
    rw [← JsMap.mem_entries_iff] at hslice
    have hcases : (sliceSlug, slice) = ("01-api", pairSlice) ∨
        (sliceSlug, slice) = ("02-ui", singleSlice) := by
      simpa [pairSlices, JsMap.set, JsMap.setEntries, JsMap.empty] using hslice
    apply wellFormed_of_rank fun slug ↦ if slug = "02-b" then 1 else 0
    rcases hcases with hcase | hcase
    · cases hcase
      decide
    · cases hcase
      decide

/-- The end of an execution task, synchronized to the plan task that points at it. -/
def ends (taskId : TaskId) (status : TaskStatus) (taskSlug : String) : List MilestoneEvent :=
  [.updateTask taskId status, .syncPlanFromExecutionTask taskId (some ("01-api", taskSlug))]

/-- Both plan tasks of the first slice are done, and the second slice starts. -/
theorem dependencies_gate_dispatch_done :
    (run step (executeMilestone pairState pairSlices .empty)
      (ends 1 .done "01-a" ++ [.advanceSlice "01-api"] ++ ends 2 .done "02-b" ++
        [.advanceSlice "01-api", .advanceMilestone])).Gated :=
  (dependencies_gate_dispatch pairState pairSlices wellFormedTree_pairSlices .empty _).mpr
    (by decide +kernel) _ (List.prefix_refl _)

/-- After `01-a` has failed, and while its retry still runs, the loop starts `02-b`; and after the
first slice has failed, it starts the second. -/
theorem dispatch_after_failure :
    ¬(run step (executeMilestone pairState pairSlices .empty)
      (ends 1 .failed "01-a" ++ [.advanceSlice "01-api"])).Gated ∧
    ¬(run step (executeMilestone pairState pairSlices .empty)
      (ends 1 .timedOut "01-a" ++ [.insertTask {}, .repointPlanTask (some ("01-api", "01-a")) 2,
        .advanceSlice "01-api"])).Gated ∧
    ¬(run step (executeMilestone pairState pairSlices .empty)
      (ends 1 .done "01-a" ++ [.advanceSlice "01-api"] ++ ends 2 .failed "02-b" ++
        [.advanceSlice "01-api", .advanceMilestone])).Gated := by
  decide +kernel

end Flockctl.AutoExecutor
