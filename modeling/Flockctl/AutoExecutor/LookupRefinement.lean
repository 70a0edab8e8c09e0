import Flockctl.AutoExecutor.PlanLookup
import Flockctl.Plan.Mutations
import Flockctl.Transition.Run

/-!
# When the lookup agrees with the walk

An index row is checked before it is used, so in healthy trees that name every task once it can
only lead where the walk leads. A cache entry is right as long as no mutation gives its task to a
plan task, or takes it away, while the entry lasts. Runs in which the cache holds no entry for the
tasks that a mutation gives or takes keep every answer equal to that of a fresh walk.
-/

namespace Flockctl.AutoExecutor

open Collections Plan Tasks Ai Transition

/-- No two plan tasks name one task. -/
def NamesOnce (store : PlanStore) : Prop :=
  ∀ id location other, store.namedAt location = some id → store.namedAt other = some id →
    location = other

/-! ## The walk in healthy trees -/

section

variable {before after : PlanStore}

theorem freshWalk_eq_some_iff (hhealthy : before.IsHealthy) (honce : NamesOnce before)
    (id : TaskId) (location : PlanTaskLocation) :
    freshWalk before id = some location ↔ before.namedAt location = some id := by
  rw [freshWalk, Option.map_eq_some_iff]
  constructor
  · rintro ⟨visit, hvisit, rfl⟩
    apply (PlanStore.visited_iff_namedAt hhealthy visit.location id).mp
    exact ⟨visit, List.mem_of_find?_eq_some hvisit, rfl, by simpa using List.find?_some hvisit⟩
  · intro hnamed
    obtain ⟨visit, hvisit, _, hpoints⟩ :=
      (PlanStore.visited_iff_namedAt hhealthy location id).mpr hnamed
    have hsome : ((walkPlanTasks before.projects before.plans).find?
        (·.task.pointsAt id)).isSome = true := by
      rw [List.find?_isSome]
      exact ⟨visit, hvisit, hpoints⟩
    obtain ⟨found, hfound⟩ := Option.isSome_iff_exists.mp hsome
    refine ⟨found, hfound, honce id _ _ ?_ hnamed⟩
    apply (PlanStore.visited_iff_namedAt hhealthy found.location id).mp
    exact ⟨found, List.mem_of_find?_eq_some hfound, rfl, by simpa using List.find?_some hfound⟩

theorem freshWalk_eq_none_iff (hhealthy : before.IsHealthy) (honce : NamesOnce before)
    (id : TaskId) :
    freshWalk before id = none ↔ ∀ location, before.namedAt location ≠ some id := by
  rw [Option.eq_none_iff_forall_ne_some]
  apply forall_congr'
  intro location
  rw [Ne, freshWalk_eq_some_iff hhealthy honce]

/-- The walk depends on what is named where. -/
theorem freshWalk_congr (hhealthy : before.IsHealthy) (honce : NamesOnce before)
    (hhealthy' : after.IsHealthy) (honce' : NamesOnce after) {id : TaskId}
    (h : ∀ location, after.namedAt location = some id ↔ before.namedAt location = some id) :
    freshWalk after id = freshWalk before id := by
  ext location
  rw [freshWalk_eq_some_iff hhealthy' honce', freshWalk_eq_some_iff hhealthy honce, h]

end

/-- The trees are healthy, name every task once, and every live cache entry is right. -/
structure Coherent (r : Resolver) : Prop where
  healthy : r.store.IsHealthy
  once : NamesOnce r.store
  right : ∀ id value, r.cached id = some value → value = freshWalk r.store id

namespace Resolver

variable {r : Resolver}

/-! ## The lookup keeps the trees and answers like the walk -/

/-- A resolver with the trees of another one. -/
structure SameTrees (r other : Resolver) : Prop where
  projects : other.store.projects = r.store.projects
  plans : other.store.plans = r.store.plans

theorem SameTrees.freshWalk_eq {other : Resolver} (h : SameTrees r other) (id : TaskId) :
    freshWalk other.store id = freshWalk r.store id := by
  rw [freshWalk, freshWalk, h.projects, h.plans]

theorem SameTrees.namedAt_eq {other : Resolver} (h : SameTrees r other) :
    other.store.namedAt = r.store.namedAt := by
  funext location
  unfold PlanStore.namedAt PlanStore.registered
  rw [h.projects, h.plans]

theorem SameTrees.coherent {other : Resolver} (h : SameTrees r other) (hr : Coherent r)
    (hcache : ∀ id value, other.cached id = some value →
      r.cached id = some value ∨ value = freshWalk r.store id) : Coherent other where
  healthy path hpath := by
    rw [h.plans]
    apply hr.healthy path
    rw [PlanStore.registered, ← h.projects]
    exact hpath
  once id location found hlocation hfound := by
    rw [h.namedAt_eq] at hlocation hfound
    exact hr.once id location found hlocation hfound
  right id value hvalue := by
    rw [h.freshWalk_eq]
    rcases hcache id value hvalue with hold | hnew
    · exact hr.right id value hold
    · exact hnew

theorem get_evict (cache : JsMap TaskId CacheEntry) {id : TaskId} {entry : CacheEntry}
    (h : (evict cache).get id = some entry) : cache.get id = some entry := by
  unfold evict at h
  split at h
  · split at h
    · exact (JsMap.get_delete_eq_some_iff.mp h).2
    · exact h
  · exact h

/-- A write to the cache adds its own entry, and may drop another one. -/
theorem cached_writeCachedPlanTask (r : Resolver) (taskId : TaskId)
    (value : Option PlanTaskLocation) {id : TaskId} {found : Option PlanTaskLocation}
    (h : (r.writeCachedPlanTask taskId value).cached id = some found) :
    (id = taskId ∧ found = value) ∨ r.cached id = some found := by
  unfold cached writeCachedPlanTask at h
  simp only [JsMap.get_set] at h
  by_cases hid : id = taskId
  · rw [if_pos hid] at h
    cases value <;> simp [PLAN_TASK_NEGATIVE_TTL_MS] at h <;> exact Or.inl ⟨hid, h.symm⟩
  · rw [if_neg hid] at h
    right
    cases hentry : (evict r.planTaskByExecutionCache).get id with
    | none => simp [hentry] at h
    | some entry =>
      rw [hentry] at h
      rw [cached, get_evict _ hentry]
      exact h

theorem cached_readCachedPlanTask (r : Resolver) (taskId : TaskId) {id : TaskId}
    {found : Option PlanTaskLocation}
    (h : (r.readCachedPlanTask taskId).1.cached id = some found) : r.cached id = some found := by
  unfold readCachedPlanTask at h
  split at h
  · exact h
  · unfold cached at h ⊢
    simp only [JsMap.get_delete] at h
    by_cases hid : id = taskId
    · simp [hid] at h
    · rw [if_neg hid] at h
      exact h

/-- The answer of the second tier is a location that names the task. -/
theorem namedAt_of_resolveByIndex {taskId : TaskId} {location : PlanTaskLocation}
    (h : (r.resolveByIndex taskId).2 = some location) :
    r.store.namedAt location = some taskId := by
  unfold resolveByIndex at h
  split at h
  · cases h
  · rename_i entry _
    split at h
    · cases h
    · rename_i path hproject
      split at h
      · cases h
      · rename_i planTasks hlist
        split at h
        · rename_i hany
          cases h
          obtain ⟨project, hfind, hroot⟩ := Option.bind_eq_some_iff.mp hproject
          obtain ⟨pt, hpt, htests⟩ := List.any_eq_true.mp hany
          rw [Bool.and_eq_true, beq_iff_eq] at htests
          have hmem : pt ∈ entriesOrNone
              (listPlanTasks (r.store.plans path) entry.milestoneSlug entry.sliceSlug) := by
            rw [hlist]
            exact hpt
          obtain ⟨_, _, name, fm, hname, hfile, rfl⟩ := (mem_listPlanTasks_iff _ _ _ pt).mp hmem
          have hslug : taskFileName entry.taskSlug = name := by
            rw [← htests.1]
            exact taskFileName_taskSlugOf hname
          apply (PlanStore.namedAt_eq_some_iff _ _ _).mpr
          refine ⟨(PlanStore.registered_iff _ _).mpr
            ⟨project, List.mem_of_find?_eq_some hfind, hroot⟩, ?_, fm, ?_, beq_iff_eq.mp htests.2⟩
          · apply (isTaskFileName_taskFileName _).mp
            rw [hslug, hname]
          · change JsMap.get _ (taskFileName entry.taskSlug) = _
            rw [hslug]
            exact hfile
        · cases h

/-! ## Each tier keeps the resolver coherent -/

theorem readCachedPlanTask_coherent (h : Coherent r) (taskId : TaskId) :
    SameTrees r (r.readCachedPlanTask taskId).1 ∧ Coherent (r.readCachedPlanTask taskId).1 := by
  have htrees : SameTrees r (r.readCachedPlanTask taskId).1 := by
    unfold readCachedPlanTask
    split <;> exact ⟨rfl, rfl⟩
  refine ⟨htrees, htrees.coherent h ?_⟩
  intro id value hvalue
  exact Or.inl (r.cached_readCachedPlanTask taskId hvalue)

theorem writeCachedPlanTask_coherent (h : Coherent r) (taskId : TaskId)
    {value : Option PlanTaskLocation} (hvalue : value = freshWalk r.store taskId) :
    Coherent (r.writeCachedPlanTask taskId value) := by
  have htrees : SameTrees r (r.writeCachedPlanTask taskId value) := ⟨rfl, rfl⟩
  apply htrees.coherent h
  intro id found hfound
  rcases r.cached_writeCachedPlanTask taskId value hfound with ⟨rfl, rfl⟩ | hold
  · exact Or.inr hvalue
  · exact Or.inl hold

theorem resolveByIndex_coherent (h : Coherent r) (taskId : TaskId) :
    SameTrees r (r.resolveByIndex taskId).1 ∧ Coherent (r.resolveByIndex taskId).1 := by
  have hpurge : SameTrees r (r.purgeIndex taskId) ∧ Coherent (r.purgeIndex taskId) := by
    have htrees : SameTrees r (r.purgeIndex taskId) := ⟨rfl, rfl⟩
    exact ⟨htrees, htrees.coherent h fun _ _ hvalue ↦ Or.inl hvalue⟩
  have hsame : SameTrees r r ∧ Coherent r := ⟨⟨rfl, rfl⟩, h⟩
  unfold resolveByIndex
  split
  · exact hsame
  · split
    · exact hpurge
    · split
      · exact hpurge
      · split
        · exact hsame
        · exact hpurge

theorem resolveByWalk_coherent (h : Coherent r) (taskId : TaskId) :
    (r.resolveByWalk taskId).2 = freshWalk r.store taskId ∧
      SameTrees r (r.resolveByWalk taskId).1 ∧ Coherent (r.resolveByWalk taskId).1 := by
  unfold resolveByWalk
  cases hfind : (walkPlanTasks r.store.projects r.store.plans).find? (·.task.pointsAt taskId) with
  | none =>
    have hwalk : none = freshWalk r.store taskId := by
      rw [freshWalk, hfind]
      rfl
    exact ⟨hwalk, ⟨rfl, rfl⟩, writeCachedPlanTask_coherent h taskId hwalk⟩
  | some visit =>
    have hwalk : some visit.location = freshWalk r.store taskId := by
      rw [freshWalk, hfind]
      rfl
    have hwritten := writeCachedPlanTask_coherent h taskId hwalk
    have hindexed (entry : IndexEntry) : SameTrees (r.writeCachedPlanTask taskId visit.location)
        { r.writeCachedPlanTask taskId visit.location with
          store := r.store.setPlanTaskExecutionIndex taskId entry } := ⟨rfl, rfl⟩
    exact ⟨hwalk, ⟨rfl, rfl⟩, (hindexed _).coherent hwritten fun _ _ hvalue ↦ Or.inl hvalue⟩

/-- A lookup answers like the walk, and leaves the trees alone and the cache right. -/
theorem find_spec (h : Coherent r) (taskId : TaskId) :
    (r.findPlanTaskByExecutionId taskId).2 = freshWalk r.store taskId ∧
      SameTrees r (r.findPlanTaskByExecutionId taskId).1 ∧
      Coherent (r.findPlanTaskByExecutionId taskId).1 := by
  unfold findPlanTaskByExecutionId
  have hread := readCachedPlanTask_coherent h taskId
  have hvalue : (r.readCachedPlanTask taskId).2 = r.cached taskId := by
    unfold readCachedPlanTask
    cases r.cached taskId <;> rfl
  cases hreads : r.readCachedPlanTask taskId with
  | mk read value =>
    rw [hreads] at hread hvalue
    cases value with
    | some value => exact ⟨h.right taskId value hvalue.symm, hread⟩
    | none =>
      obtain ⟨htrees, hcoherent⟩ := hread
      have hindex := resolveByIndex_coherent hcoherent taskId
      cases hchecks : read.resolveByIndex taskId with
      | mk checked indexed =>
        rw [hchecks] at hindex
        obtain ⟨hindexTrees, hchecked⟩ := hindex
        simp only [hchecks]
        have hwalks : freshWalk checked.store taskId = freshWalk r.store taskId :=
          (hindexTrees.freshWalk_eq taskId).trans (htrees.freshWalk_eq taskId)
        have hall : SameTrees r checked :=
          ⟨hindexTrees.projects.trans htrees.projects, hindexTrees.plans.trans htrees.plans⟩
        cases indexed with
        | some location =>
          have hnamed : read.store.namedAt location = some taskId := by
            apply namedAt_of_resolveByIndex
            rw [hchecks]
          have hfound : some location = freshWalk checked.store taskId := by
            rw [hindexTrees.freshWalk_eq]
            exact ((freshWalk_eq_some_iff hcoherent.healthy hcoherent.once _ _).mpr hnamed).symm
          exact ⟨hfound.trans hwalks, ⟨hall.projects, hall.plans⟩,
            writeCachedPlanTask_coherent hchecked taskId hfound⟩
        | none =>
          obtain ⟨hanswer, hwalkTrees, hwalked⟩ := resolveByWalk_coherent hchecked taskId
          exact ⟨hanswer.trans hwalks, ⟨hwalkTrees.projects.trans hall.projects,
            hwalkTrees.plans.trans hall.plans⟩, hwalked⟩

end Resolver

/-! ## The writers that look up first -/

section

variable {store : PlanStore} {location : PlanTaskLocation} {dir : MilestoneDir} {files : SliceDir}

/-- In healthy trees the aggregation of a slice that exists returns, and it changes no plan
task. -/
theorem aggregate_changes (hhealthy : store.IsHealthy)
    (hregistered : store.registered location.projectPath = true)
    (hdir : (store.plans location.projectPath).get location.milestoneSlug = some dir)
    (hfiles : dir.slices.get location.sliceSlug = some files) :
    (aggregate store location).2 = true ∧
      ChangesOnly (fun _ ↦ False) store (aggregate store location).1 := by
  have hplan := hhealthy location.projectPath hregistered
  have hsafe := (hplan.milestone _ dir hdir).1
  have hslice := hplan.slice _ dir hdir _ files hfiles
  have hsliceDir : sliceDir (store.plans location.projectPath) location.milestoneSlug
      location.sliceSlug = files := by
    rw [sliceDir, milestoneDir, hdir, Option.getD_some, hfiles]
    rfl
  obtain ⟨planTasks, hplanTasks⟩ :=
    listPlanTasks_returns (store.plans location.projectPath) hsafe hslice.1
  obtain ⟨slices, hslices⟩ := hplan.listSlices_returns hsafe
  have hupdated : ∃ updated, aggregateSlice store location planTasks slices = .ok updated ∧
      ChangesOnly (fun _ ↦ False) store updated := by
    unfold aggregateSlice
    split
    · exact ⟨store, rfl, ChangesOnly.refl store⟩
    · dsimp only
      split
      · exact ⟨store, rfl, ChangesOnly.refl store⟩
      · obtain ⟨updated, hupdated⟩ := PlanStore.updateSlice_returns hsafe hslice.1 hsliceDir
          hslice.2.1 hslice.2.2 (statusChange _)
        exact ⟨updated, hupdated, PlanStore.updateSlice_changes hupdated⟩
  obtain ⟨updated, hupdate, hchanges⟩ := hupdated
  have hplan' : Healthy (updated.plans location.projectPath) := by
    apply hchanges.healthy hhealthy
    rw [PlanStore.registered, hchanges.projects]
    exact hregistered
  have hfinal : ∃ final, aggregateMilestone updated location = .ok final ∧
      ChangesOnly (fun _ ↦ False) updated final := by
    obtain ⟨slices', hslices'⟩ := hplan'.listSlices_returns hsafe
    obtain ⟨milestones, hmilestones⟩ := hplan'.listMilestones_returns
    unfold aggregateMilestone
    rw [hslices', hmilestones]
    dsimp only [bind, Except.bind]
    cases hfind : milestones.find? (·.slug == location.milestoneSlug) with
    | none => exact ⟨updated, rfl, ChangesOnly.refl updated⟩
    | some milestone =>
      dsimp only
      split
      · have hlisted : ∃ m ∈ entriesOrNone (listMilestones (updated.plans location.projectPath)),
            m.slug = location.milestoneSlug := by
          rw [hmilestones]
          exact ⟨milestone, List.mem_of_find?_eq_some hfind, by simpa using List.find?_some hfind⟩
        obtain ⟨file, hfile⟩ := Option.isSome_iff_exists.mp
          ((mem_listMilestones_iff _ _).mp hlisted).2
        obtain ⟨dir', hdir', _⟩ := Option.bind_eq_some_iff.mp hfile
        have hmilestone := hplan'.milestone _ dir' hdir'
        have hmilestoneDir : milestoneDir (updated.plans location.projectPath)
            location.milestoneSlug = dir' := by
          rw [milestoneDir, hdir']
          rfl
        obtain ⟨final, hfinal⟩ := PlanStore.updateMilestone_returns hsafe
          (by rw [hmilestoneDir]; exact hmilestone.2.1)
          (by rw [hmilestoneDir]; exact hmilestone.2.2) (statusChange "completed")
        exact ⟨final, hfinal, PlanStore.updateMilestone_changes rfl hfinal⟩
      · exact ⟨updated, rfl, ChangesOnly.refl updated⟩
  obtain ⟨final, hfinal, hchanges'⟩ := hfinal
  unfold aggregate
  rw [hplanTasks, hslices]
  cases planTasks with
  | nil => exact ⟨rfl, ChangesOnly.refl store⟩
  | cons first rest =>
    simp only [hupdate, hfinal]
    exact ⟨trivial, hchanges.trans hchanges'⟩

end

namespace Resolver

variable {r : Resolver}

/-- What the two writes after a lookup leave, where the location names a task: nothing, when the
first of them is refused, or the fields merged into the file of the plan task. -/
theorem writeFound_spec (hhealthy : r.store.IsHealthy) {location : PlanTaskLocation} {id : TaskId}
    (hnamed : r.store.namedAt location = some id) (changes : Frontmatter) (listed : Bool) :
    (PlanStore.assertSafeLocation location ≠ .ok () ∧
      r.writeFound location changes listed = (r, false)) ∨
      ∃ (fm : Frontmatter) (after : PlanStore), fm "execution_task_id" = some (.number id) ∧
        r.writeFound location changes listed = ({ r with store := after }, true) ∧
        ChangesOnly (· = location) r.store after ∧
        after.namedAt location =
          namedTask location.taskSlug (some (.parsed (fm.merge changes) listed)) := by
  obtain ⟨hregistered, _, fm, hfile, hid⟩ := (PlanStore.namedAt_eq_some_iff _ _ _).mp hnamed
  unfold writeFound
  cases hupdate : r.store.updatePlanTask location changes listed with
  | error error =>
    refine Or.inl ⟨?_, rfl⟩
    intro hsafe
    obtain ⟨updated, hreturned⟩ := PlanStore.updatePlanTask_returns hsafe hfile changes listed
    rw [hreturned] at hupdate
    cases hupdate
  | ok updated =>
    right
    obtain ⟨_, file, existing, hfile', hread, hprojects, hplans⟩ :=
      PlanStore.updatePlanTask_writes hupdate
    have hexisting : existing = fm := by
      rw [hfile] at hfile'
      cases hfile'
      cases hread
      rfl
    have hchanges := PlanStore.updatePlanTask_changes hupdate
    have hregistered' : updated.registered location.projectPath = true := by
      rw [PlanStore.registered, hprojects]
      exact hregistered
    have hwritten : fileAt updated.plans location =
        some (.parsed (existing.merge changes) listed) := by
      rw [hplans, fileAt_writeTaskFile, if_pos rfl]
    obtain ⟨dir, files, hdir, hfiles, _⟩ := dirs_of_get_sliceDir hwritten
    obtain ⟨hreturned, haggregate⟩ :=
      aggregate_changes (hchanges.healthy hhealthy) hregistered' hdir hfiles
    refine ⟨fm, (aggregate updated location).1, hid, ?_, ?_, ?_⟩
    · dsimp only
      rw [hreturned]
    · exact hchanges.trans (haggregate.mono fun _ h ↦ h.elim)
    · rw [haggregate.others location not_false, PlanStore.namedAt_write hprojects hplans,
        if_pos hregistered,
        hexisting]

/-! ## Mutations that keep the answers -/

/-- The cache holds nothing live about the task. -/
def uncached (r : Resolver) (named : Option TaskId) : Bool :=
  named.all fun id ↦ (r.cached id).isNone

/-- A mutation of the plan task at a location leaves the task it names as it is, or takes and gives
tasks the cache holds nothing about, and gives none that another plan task names. -/
def settles (r : Resolver) (result : Except String PlanStore) (location : PlanTaskLocation) :
    Bool :=
  match result with
  | .error _ => true
  | .ok after =>
    r.store.namedAt location == after.namedAt location ||
      (r.uncached (r.store.namedAt location) && r.uncached (after.namedAt location) &&
        (after.namedAt location).all fun id ↦ (freshWalk r.store id).isNone)

/-- The cache holds nothing live about the tasks that are named in a region. -/
def spares (r : Resolver) (region : PlanTaskLocation → Bool) : Bool :=
  r.planTaskByExecutionCache.keys.all fun id ↦ (r.cached id).isNone ||
    (walkPlanTasks r.store.projects r.store.plans).all fun visit ↦
      !(region visit.location && visit.task.pointsAt id)

/-- The condition on an event. The files of slices and milestones are not deleted as if they were
plan tasks or slices; a task a plan task is repointed to is not named yet; and a status write keeps
the block of its file within the first 8192 characters. -/
def keepsAnswers (r : Resolver) : ResolverEvent → Bool
  | .createPlanTask projectPath milestoneSlug sliceSlug base fields listed =>
    r.settles (r.store.createPlanTask projectPath milestoneSlug sliceSlug base fields listed)
      (r.store.createdLocation projectPath milestoneSlug sliceSlug base)
  | .updatePlanTask location changes listed =>
    r.settles (r.store.updatePlanTask location changes listed) location
  | .deletePlanTask location =>
    location.taskSlug != "slice" && r.settles (r.store.deletePlanTask location) location
  | .deleteSlice projectPath milestoneSlug sliceSlug =>
    sliceSlug != "milestone.md" &&
      r.spares fun location ↦ location.slice == (projectPath, milestoneSlug, sliceSlug)
  | .deleteMilestone projectPath milestoneSlug =>
    r.spares fun location ↦ location.projectPath == projectPath &&
      location.milestoneSlug == milestoneSlug
  | .repointPlanTask previousTaskId newTaskId _ =>
    (freshWalk r.store previousTaskId).isNone || newTaskId == previousTaskId ||
      (freshWalk r.store newTaskId).isNone
  | .syncPlanFromExecutionTask taskId _ listed => (freshWalk r.store taskId).isNone || listed
  | .find _ => true
  | .pass _ => true

end Resolver

namespace Coherent

variable {r : Resolver} {after : PlanStore}

/-- A mutation that changes nothing the cache holds keeps the resolver coherent. -/
theorem mutate (h : Coherent r) (hhealthy : after.IsHealthy) (honce : NamesOnce after)
    (hkept : ∀ id value, r.cached id = some value →
      ∀ location, after.namedAt location = some id ↔ r.store.namedAt location = some id) :
    Coherent { r with store := after } where
  healthy := hhealthy
  once := honce
  right id value hvalue := by
    calc value
        = freshWalk r.store id := h.right id value hvalue
      _ = freshWalk after id :=
          (freshWalk_congr h.healthy h.once hhealthy honce (hkept id value hvalue)).symm

theorem settles (h : Coherent r) {result : Except String PlanStore} {location : PlanTaskLocation}
    (hsettles : r.settles result location = true) (hresult : result = .ok after)
    (hchanges : ChangesOnly (· = location) r.store after) :
    Coherent { r with store := after } := by
  rw [hresult, Resolver.settles, Bool.or_eq_true, beq_iff_eq] at hsettles
  have hothers (other : PlanTaskLocation) (hother : other ≠ location) :
      after.namedAt other = r.store.namedAt other := hchanges.others other hother
  rcases hsettles with hsame | hquiet
  · have hall (other : PlanTaskLocation) : after.namedAt other = r.store.namedAt other := by
      by_cases hother : other = location
      · rw [hother, hsame]
      · exact hothers other hother
    apply h.mutate (hchanges.healthy h.healthy)
    · intro id first second hfirst hsecond
      rw [hall] at hfirst hsecond
      exact h.once id first second hfirst hsecond
    · intro id value _ other
      rw [hall]
  · simp only [Resolver.uncached, Bool.and_eq_true, Option.all_eq_true, Option.isNone_iff_eq_none]
      at hquiet
    obtain ⟨⟨htaken, hgiven⟩, hunnamed⟩ := hquiet
    have hfresh (id : TaskId) (hid : after.namedAt location = some id) (other : PlanTaskLocation) :
        r.store.namedAt other ≠ some id :=
      (freshWalk_eq_none_iff h.healthy h.once id).mp (hunnamed id hid) other
    apply h.mutate (hchanges.healthy h.healthy)
    · intro id first second hfirst hsecond
      by_cases hfirstAt : first = location
      · subst hfirstAt
        by_contra hne
        rw [hothers second fun heq ↦ hne heq.symm] at hsecond
        exact hfresh id hfirst second hsecond
      · rw [hothers first hfirstAt] at hfirst
        by_cases hsecondAt : second = location
        · subst hsecondAt
          exact absurd hfirst (hfresh id hsecond first)
        · rw [hothers second hsecondAt] at hsecond
          exact h.once id first second hfirst hsecond
    · intro id value hvalue other
      by_cases hother : other = location
      · subst hother
        constructor
        · intro hnamed
          rw [hgiven id hnamed] at hvalue
          cases hvalue
        · intro hnamed
          rw [htaken id hnamed] at hvalue
          cases hvalue
      · rw [hothers other hother]

theorem spares (h : Coherent r) {region : PlanTaskLocation → Bool}
    (hspares : r.spares region = true)
    (hchanges : ChangesOnly (fun location ↦ region location = true) r.store after)
    (hnone : ∀ location, region location = true → after.namedAt location = none) :
    Coherent { r with store := after } := by
  have hnamed (id : TaskId) (location : PlanTaskLocation)
      (h : after.namedAt location = some id) : r.store.namedAt location = some id := by
    cases hregion : region location with
    | true =>
      rw [hnone location hregion] at h
      cases h
    | false =>
      rw [← hchanges.others location (by rw [hregion]; exact Bool.false_ne_true)]
      exact h
  apply h.mutate (hchanges.healthy h.healthy)
  · intro id first second hfirst hsecond
    exact h.once id first second (hnamed id first hfirst) (hnamed id second hsecond)
  · intro id value hvalue location
    refine ⟨hnamed id location, ?_⟩
    intro hbefore
    by_cases hregion : region location = true
    · exfalso
      have hkey : id ∈ r.planTaskByExecutionCache.keys := by
        apply (JsMap.mem_keys_iff _ _).mpr
        cases hentry : r.planTaskByExecutionCache.get id with
        | none => simp [Resolver.cached, hentry] at hvalue
        | some entry => exact ⟨entry, rfl⟩
      obtain ⟨visit, hvisit, rfl, hpoints⟩ :=
        (PlanStore.visited_iff_namedAt h.healthy location id).mpr hbefore
      have hid := List.all_eq_true.mp hspares id hkey
      rw [hvalue, Option.isNone_some, Bool.false_or] at hid
      have hvisited := List.all_eq_true.mp hid visit hvisit
      simp [hregion, hpoints] at hvisited
    · rw [hchanges.others location hregion]
      exact hbefore

/-- The writes of `repointPlanTask` end with an empty cache. -/
theorem repointPlanTask (h : Coherent r) {previousTaskId newTaskId : TaskId} {listed : Bool}
    (hkeeps : r.keepsAnswers (.repointPlanTask previousTaskId newTaskId listed) = true) :
    Coherent (r.repointPlanTask previousTaskId newTaskId listed) := by
  obtain ⟨hanswer, htrees, hfound⟩ := Resolver.find_spec h previousTaskId
  unfold Resolver.repointPlanTask
  cases hfind : r.findPlanTaskByExecutionId previousTaskId with
  | mk found answer =>
    rw [hfind] at hanswer htrees hfound
    cases answer with
    | none => exact hfound
    | some location =>
      have hnamed : found.store.namedAt location = some previousTaskId := by
        rw [htrees.namedAt_eq]
        exact (freshWalk_eq_some_iff h.healthy h.once _ _).mp hanswer.symm
      rcases Resolver.writeFound_spec hfound.healthy hnamed ((statusChange "active").merge fun key ↦
        if key = "execution_task_id" then some (.number newTaskId) else none) listed with
        ⟨_, hwrite⟩ | ⟨fm, after, hid, hwrite, hchanges, hafter⟩
      · simp only [hwrite]
        exact hfound
      · simp only [hwrite]
        have hgiven (id : TaskId) (hnamed' : after.namedAt location = some id) :
            id = newTaskId := by
          rw [hafter, namedTask_eq_some_iff] at hnamed'
          obtain ⟨_, fields, hfields, hfield⟩ := hnamed'
          cases hfields
          have hnumber : some (YamlValue.number newTaskId) = some (.number id) := hfield
          simp only [Option.some.injEq, YamlValue.number.injEq] at hnumber
          exact (Int.ofNat.inj hnumber).symm
        have hunnamed (other : PlanTaskLocation)
            (hother : found.store.namedAt other = some newTaskId) : other = location := by
          simp only [Resolver.keepsAnswers, Bool.or_eq_true, Option.isNone_iff_eq_none,
            beq_iff_eq] at hkeeps
          rw [htrees.namedAt_eq] at hother hnamed
          rcases hkeeps with (hnone | hsame) | hfresh
          · rw [← hanswer] at hnone
            cases hnone
          · rw [hsame] at hother
            exact h.once previousTaskId other location hother hnamed
          · exact absurd hother ((freshWalk_eq_none_iff h.healthy h.once newTaskId).mp hfresh other)
        refine ⟨hchanges.healthy hfound.healthy, ?_, ?_⟩
        · intro id first second hfirst hsecond
          change after.namedAt first = some id at hfirst
          change after.namedAt second = some id at hsecond
          by_cases hfirstAt : first = location
          · subst hfirstAt
            by_contra hne
            rw [hchanges.others second fun heq ↦ hne heq.symm, hgiven id hfirst] at hsecond
            exact hne (hunnamed second hsecond).symm
          · rw [hchanges.others first hfirstAt] at hfirst
            by_cases hsecondAt : second = location
            · subst hsecondAt
              rw [hgiven id hsecond] at hfirst
              exact hunnamed first hfirst
            · rw [hchanges.others second hsecondAt] at hsecond
              exact hfound.once id first second hfirst hsecond
        · intro id value hvalue
          cases hvalue

/-- A sync leaves the trees, or it writes the plan task that names its task; a status that stays
listed changes no name. -/
theorem sync_spec (h : Coherent r) (taskId : TaskId) (status : Option TaskStatus)
    (listed : Bool) :
    ∃ found, Resolver.SameTrees r found ∧ Coherent found ∧
      (r.syncPlanFromExecutionTask taskId status listed = found ∨
        ∃ location after, freshWalk r.store taskId = some location ∧
          r.store.namedAt location = some taskId ∧
          r.syncPlanFromExecutionTask taskId status listed = { found with store := after } ∧
          ChangesOnly (· = location) found.store after ∧
          (listed = true → after.namedAt = found.store.namedAt)) := by
  unfold Resolver.syncPlanFromExecutionTask
  cases status with
  | none => exact ⟨r, ⟨rfl, rfl⟩, h, Or.inl rfl⟩
  | some status =>
    obtain ⟨hanswer, htrees, hfound⟩ := Resolver.find_spec h taskId
    cases hfind : r.findPlanTaskByExecutionId taskId with
    | mk found answer =>
      rw [hfind] at hanswer htrees hfound
      refine ⟨found, htrees, hfound, ?_⟩
      cases answer with
      | none => exact Or.inl rfl
      | some location =>
        have hnamed : r.store.namedAt location = some taskId :=
          (freshWalk_eq_some_iff h.healthy h.once _ _).mp hanswer.symm
        have hstored : found.store.namedAt location = some taskId := by
          rw [htrees.namedAt_eq, hnamed]
        dsimp only
        cases planStatusOf status with
        | none => exact Or.inl rfl
        | some planStatus =>
          rcases Resolver.writeFound_spec hfound.healthy hstored
            (statusChange planStatus.text) listed with
            ⟨_, hwrite⟩ | ⟨fm, after, hid, hwrite, hchanges, hafter⟩
          · exact Or.inl (congrArg Prod.fst hwrite)
          · refine Or.inr ⟨location, after, hanswer.symm, hnamed, congrArg Prod.fst hwrite,
              hchanges, ?_⟩
            rintro rfl
            have hkept : after.namedAt location = some taskId := by
              rw [hafter, namedTask_eq_some_iff]
              exact ⟨((PlanStore.namedAt_eq_some_iff _ _ _).mp hstored).2.1, _, rfl, hid⟩
            funext other
            by_cases hother : other = location
            · rw [hother, hkept, hstored]
            · exact hchanges.others other hother

theorem listed_of_keepsAnswers {taskId : TaskId} {status : Option TaskStatus} {listed : Bool}
    {location : PlanTaskLocation} (hwalk : freshWalk r.store taskId = some location)
    (hkeeps : r.keepsAnswers (.syncPlanFromExecutionTask taskId status listed) = true) :
    listed = true := by
  simpa [Resolver.keepsAnswers, hwalk] using hkeeps

theorem syncPlanFromExecutionTask (h : Coherent r) {taskId : TaskId} {status : Option TaskStatus}
    {listed : Bool}
    (hkeeps : r.keepsAnswers (.syncPlanFromExecutionTask taskId status listed) = true) :
    Coherent (r.syncPlanFromExecutionTask taskId status listed) := by
  obtain ⟨found, -, hfound, hsame | ⟨location, after, hwalk, -, hwrite, hchanges, hlisted⟩⟩ :=
    h.sync_spec taskId status listed
  · rw [hsame]
    exact hfound
  · have hnames := hlisted (listed_of_keepsAnswers hwalk hkeeps)
    rw [hwrite]
    apply hfound.mutate (hchanges.healthy hfound.healthy)
    · intro id first second hfirst hsecond
      rw [hnames] at hfirst hsecond
      exact hfound.once id first second hfirst hsecond
    · intro id value _ other
      rw [hnames]

/-- Entries only expire as time passes. -/
theorem pass (h : Coherent r) (milliseconds : ℕ) :
    Coherent { r with now := r.now + milliseconds } := by
  have htrees : Resolver.SameTrees r { r with now := r.now + milliseconds } := ⟨rfl, rfl⟩
  apply htrees.coherent h
  intro id value hvalue
  left
  unfold Resolver.cached at hvalue ⊢
  cases hentry : r.planTaskByExecutionCache.get id with
  | none => simp [hentry] at hvalue
  | some entry =>
    simp only [hentry] at hvalue ⊢
    cases hlocation : entry.value with
    | some location => simpa [hlocation] using hvalue
    | none =>
      simp only [hlocation] at hvalue ⊢
      split at hvalue
      · cases hvalue
      · rename_i hfresh
        rw [if_neg (by omega)]
        exact hvalue

theorem step (h : Coherent r) (event : ResolverEvent) (hkeeps : r.keepsAnswers event = true) :
    Coherent (r.step event) := by
  cases event with
  | createPlanTask projectPath milestoneSlug sliceSlug base fields listed =>
    change Coherent (r.mutate _)
    cases hresult : r.store.createPlanTask projectPath milestoneSlug sliceSlug base fields listed with
    | error error => exact h
    | ok after => exact h.settles hkeeps hresult (PlanStore.createPlanTask_changes hresult)
  | updatePlanTask location changes listed =>
    change Coherent (r.mutate _)
    cases hresult : r.store.updatePlanTask location changes listed with
    | error error => exact h
    | ok after => exact h.settles hkeeps hresult (PlanStore.updatePlanTask_changes hresult)
  | deletePlanTask location =>
    obtain ⟨hslug, hsettles⟩ := Bool.and_eq_true_iff.mp hkeeps
    change Coherent (r.mutate _)
    cases hresult : r.store.deletePlanTask location with
    | error error => exact h
    | ok after =>
      exact h.settles hsettles hresult
        (PlanStore.deletePlanTask_changes (bne_iff_ne.mp hslug) hresult)
  | deleteSlice projectPath milestoneSlug sliceSlug =>
    obtain ⟨hslug, hspares⟩ := Bool.and_eq_true_iff.mp hkeeps
    change Coherent (r.mutate _)
    cases hresult : r.store.deleteSlice projectPath milestoneSlug sliceSlug with
    | error error => exact h
    | ok after =>
      obtain ⟨hchanges, hnone⟩ := PlanStore.deleteSlice_changes (bne_iff_ne.mp hslug) hresult
      apply h.spares hspares
      · exact hchanges.mono fun location hlocation ↦ beq_iff_eq.mpr hlocation
      · intro location hlocation
        exact hnone location (beq_iff_eq.mp hlocation)
  | deleteMilestone projectPath milestoneSlug =>
    change Coherent (r.mutate _)
    cases hresult : r.store.deleteMilestone projectPath milestoneSlug with
    | error error => exact h
    | ok after =>
      obtain ⟨hchanges, hnone⟩ := PlanStore.deleteMilestone_changes hresult
      have hspares : r.spares (fun location ↦ location.projectPath == projectPath &&
          location.milestoneSlug == milestoneSlug) = true := hkeeps
      apply h.spares hspares
      · exact hchanges.mono fun location hlocation ↦ by simpa using hlocation
      · intro location hlocation
        exact hnone location (by simpa using hlocation)
  | repointPlanTask previousTaskId newTaskId listed => exact h.repointPlanTask hkeeps
  | syncPlanFromExecutionTask taskId status listed => exact h.syncPlanFromExecutionTask hkeeps
  | find taskId => exact (Resolver.find_spec h taskId).2.2
  | pass milliseconds => exact h.pass milliseconds

end Coherent

/-- A sync that keeps the answers leaves every name. -/
theorem Coherent.syncPlanFromExecutionTask_names {r : Resolver} (h : Coherent r) {taskId : TaskId}
    {status : Option TaskStatus} {listed : Bool}
    (hkeeps : r.keepsAnswers (.syncPlanFromExecutionTask taskId status listed) = true) :
    (r.syncPlanFromExecutionTask taskId status listed).store.namedAt = r.store.namedAt := by
  obtain ⟨found, htrees, -, hsame | ⟨location, after, hwalk, -, hwrite, -, hlisted⟩⟩ :=
    h.sync_spec taskId status listed
  · rw [hsame, htrees.namedAt_eq]
  · rw [hwrite, ← htrees.namedAt_eq]
    exact hlisted (listed_of_keepsAnswers hwalk hkeeps)

/-- A sync writes to no plan task but one that names its task. -/
theorem Coherent.syncPlanFromExecutionTask_files {r : Resolver} (h : Coherent r) {taskId : TaskId}
    {status : Option TaskStatus} {listed : Bool} {location : PlanTaskLocation}
    (hslug : location.taskSlug ≠ "slice")
    (hwritten : fileAt (r.syncPlanFromExecutionTask taskId status listed).store.plans location ≠
      fileAt r.store.plans location) : r.store.namedAt location = some taskId := by
  by_contra hother
  apply hwritten
  obtain ⟨found, htrees, -, hsame | ⟨target, after, -, hnamed, hwrite, hchanges, -⟩⟩ :=
    h.sync_spec taskId status listed
  · rw [hsame, htrees.plans]
  · rw [hwrite, ← htrees.plans]
    apply hchanges.files location _ hslug
    rintro rfl
    exact hother hnamed

/-- In a run from an empty cache over healthy trees that name every task once, whose events all
keep the answers, a lookup in any state reached answers what a fresh walk finds, and a sync there
writes to no plan task but the one that names its task. -/
theorem lookup_refines_walk (start : Resolver) (hhealthy : start.store.IsHealthy)
    (honce : NamesOnce start.store) (hcache : start.planTaskByExecutionCache = JsMap.empty)
    (events : List ResolverEvent)
    (hevents : Disciplined Resolver.step (fun r event ↦ r.keepsAnswers event = true) start events) :
    let r := run Resolver.step start events
    (∀ taskId, (r.findPlanTaskByExecutionId taskId).2 = freshWalk r.store taskId) ∧
      ∀ taskId status listed location, location.taskSlug ≠ "slice" →
        fileAt (r.syncPlanFromExecutionTask taskId status listed).store.plans location ≠
          fileAt r.store.plans location →
        r.store.namedAt location = some taskId := by
  have hstart : Coherent start := by
    refine ⟨hhealthy, honce, ?_⟩
    intro id value hvalue
    rw [Resolver.cached, hcache] at hvalue
    cases hvalue
  have hreached : Coherent (run Resolver.step start events) :=
    run_invariant (fun _ event h ↦ h.step event) hstart events hevents
  constructor
  · intro taskId
    exact (Resolver.find_spec hreached taskId).1
  · intro taskId status listed location hslug hwritten
    exact hreached.syncPlanFromExecutionTask_files hslug hwritten

/-! ## A project with two plan tasks -/

/-- `{ execution_task_id: … }`. -/
def executionChange (taskId : TaskId) : Frontmatter := fun key ↦
  if key = "execution_task_id" then some (.number taskId) else none

/-- The slice `01-api`: its plan task `01-do` names task 1, and `02-test` names none. -/
def apiSlice : SliceDir :=
  ((JsMap.empty.set "slice.md" (.parsed .empty true)).set "01-do.md"
    (.parsed (executionChange 1) true)).set "02-test.md" (.parsed .empty true)

def appPlan : PlanDir :=
  JsMap.empty.set "01-core"
    { milestoneMd := some (.parsed .empty true), slices := JsMap.empty.set "01-api" apiSlice }

def appResolver : Resolver where
  store := { projects := [⟨1, some "/app"⟩], plans := fun _ ↦ appPlan }

def doLocation : PlanTaskLocation := ⟨"/app", "01-core", "01-api", "01-do"⟩

def testLocation : PlanTaskLocation := ⟨"/app", "01-core", "01-api", "02-test"⟩

theorem appPlan_healthy : Healthy appPlan := by
  have hempty : Healthy JsMap.empty := by
    constructor <;> intro slug dir hdir <;> cases hdir
  apply hempty.set
    { milestoneMd := some (.parsed .empty true), slices := JsMap.empty.set "01-api" apiSlice }
  · decide +kernel
  · rfl
  · decide +kernel
  · intro sliceSlug files hfiles
    rw [JsMap.get_set] at hfiles
    split at hfiles
    · rename_i hslug
      cases hfiles
      rw [hslug]
      decide +kernel
    · cases hfiles

theorem appResolver_healthy : appResolver.store.IsHealthy := fun _ _ ↦ appPlan_healthy

theorem appResolver_namesOnce : NamesOnce appResolver.store := by
  have hwalk : (walkPlanTasks appResolver.store.projects appResolver.store.plans).filter
      (fun visit ↦ visit.task.executionTaskId.isSome) =
      [⟨1, doLocation, ⟨"01-do", .pending, some (.number 1)⟩⟩] := by decide +kernel
  have honly (id : TaskId) (location : PlanTaskLocation)
      (h : appResolver.store.namedAt location = some id) : location = doLocation := by
    obtain ⟨visit, hvisit, rfl, hpoints⟩ :=
      (PlanStore.visited_iff_namedAt appResolver_healthy location id).mpr h
    have hmem : visit ∈ (walkPlanTasks appResolver.store.projects appResolver.store.plans).filter
        (fun visit ↦ visit.task.executionTaskId.isSome) := by
      apply List.mem_filter.mpr
      refine ⟨hvisit, ?_⟩
      rw [beq_iff_eq.mp hpoints]
      rfl
    rw [hwalk, List.mem_singleton] at hmem
    rw [hmem]
  intro id location other hlocation hother
  rw [honly id location hlocation, honly id other hother]

/-- A run that links a plan task, repoints one, syncs it and deletes the other one. -/
theorem lookup_refines_walk_relinked :
    let r := run Resolver.step appResolver [.find 1, .updatePlanTask testLocation
      (executionChange 2) true, .find 2, .repointPlanTask 1 3 true,
      .syncPlanFromExecutionTask 3 (some .done) true, .find 9, .pass 60001,
      .deletePlanTask testLocation]
    (∀ taskId, (r.findPlanTaskByExecutionId taskId).2 = freshWalk r.store taskId) ∧
      ∀ taskId status listed location, location.taskSlug ≠ "slice" →
        fileAt (r.syncPlanFromExecutionTask taskId status listed).store.plans location ≠
          fileAt r.store.plans location →
        r.store.namedAt location = some taskId :=
  lookup_refines_walk appResolver appResolver_healthy appResolver_namesOnce rfl _
    (by decide +kernel)

/-! ## Entries that outlive a mutation -/

/-- The value of a field in the file of a plan task. -/
def fieldAt (store : PlanStore) (location : PlanTaskLocation) (key : String) : Option YamlValue :=
  (fileAt store.plans location).bind fun file ↦
    match file with
    | .parsed fields _ => fields key
    | .unreadable _ => none

def deletedAfterLookup : Resolver :=
  run Resolver.step appResolver [.find 1, .deletePlanTask doLocation]

def linkedAfterLookup : Resolver :=
  run Resolver.step appResolver [.find 2, .updatePlanTask testLocation (executionChange 2) true]

def relinkedAfterLookup : Resolver :=
  run Resolver.step appResolver [.find 1, .updatePlanTask doLocation (executionChange 2) true]

/-- After a lookup, a deleted plan task is still found, a new link is not, and the outcome of a task
is written to a plan task that has been relinked. -/
theorem lookup_outlives_mutations :
    (¬∀ taskId, (deletedAfterLookup.findPlanTaskByExecutionId taskId).2 =
      freshWalk deletedAfterLookup.store taskId) ∧
    (¬∀ taskId, (linkedAfterLookup.findPlanTaskByExecutionId taskId).2 =
      freshWalk linkedAfterLookup.store taskId) ∧
    ¬∀ taskId status listed location, location.taskSlug ≠ "slice" →
      fileAt (relinkedAfterLookup.syncPlanFromExecutionTask taskId status listed).store.plans
          location ≠ fileAt relinkedAfterLookup.store.plans location →
      relinkedAfterLookup.store.namedAt location = some taskId := by
  refine ⟨?_, ?_, ?_⟩
  · intro h
    have hfound := h 1
    revert hfound
    decide +kernel
  · intro h
    have hfound := h 2
    revert hfound
    decide +kernel
  · intro h
    have hwritten :
        fileAt (relinkedAfterLookup.syncPlanFromExecutionTask 1 (some .done) true).store.plans
          doLocation ≠ fileAt relinkedAfterLookup.store.plans doLocation := by
      intro hsame
      have hstatus : fieldAt
          (relinkedAfterLookup.syncPlanFromExecutionTask 1 (some .done) true).store doLocation
            "status" = fieldAt relinkedAfterLookup.store doLocation "status" := by
        rw [fieldAt, hsame]
        rfl
      revert hstatus
      decide +kernel
    have hnamed := h 1 (some .done) true doLocation (by decide) hwritten
    revert hnamed
    decide +kernel

end Flockctl.AutoExecutor
