import Flockctl.GlobalWs.Manager
import Mathlib.Data.List.Dedup

/-!
# The maps follow the subscriptions

As long as no unsubscribe function is called while another subscription of the same handler is
active, the sets of handlers are those of the active subscriptions, the reference count of a project
is the number of its active subscriptions to file events, and the maps have no empty entries.
-/

namespace Flockctl.GlobalWs

open Collections

namespace Registry

variable (r : Registry)

/-- The handler has an active subscription to the topic of the project. -/
def Registered (topic : Topic) (projectId : ProjectId) (handler : ℕ) : Prop :=
  ⟨topic, projectId, handler, true⟩ ∈ r.subscriptions

/-- The number of active subscriptions to the file events of the project. -/
def fsCount (projectId : ProjectId) : ℕ :=
  r.subscriptions.countP fun subscription ↦
    subscription.active && subscription.topic == .fs && subscription.projectId == projectId

structure Counted (r : Registry) : Prop where
  refcount : ∀ projectId, r.fsRefcount.get projectId =
    if r.fsCount projectId = 0 then none else some (r.fsCount projectId)
  nodup : ∀ topic projectId, (r.handlersOf topic projectId).Nodup
  handlers : ∀ topic projectId handler,
    handler ∈ r.handlersOf topic projectId ↔ r.Registered topic projectId handler
  nonempty : ∀ projectId, r.gitHandlers.get projectId ≠ some []

/-- There is another active subscription of the same handler to the same topic of the project. -/
def IsShared (index : ℕ) (subscription : Subscription) : Prop :=
  ∃ other ≠ index, r.subscriptions[other]? = some subscription

variable {r}

theorem counted_empty : Counted {} where
  refcount := by simp [fsCount]
  nodup := by
    intro topic projectId
    cases topic <;> simp [handlersOf]
  handlers := by
    intro topic projectId handler
    cases topic <;> simp [handlersOf, Registered]
  nonempty := by simp

theorem fsCount_pos_iff (projectId : ProjectId) :
    0 < r.fsCount projectId ↔ ∃ handler, r.Registered .fs projectId handler := by
  rw [fsCount, List.countP_pos_iff]
  constructor
  · rintro ⟨⟨topic, other, handler, active⟩, hmem, hcounted⟩
    simp only [Bool.and_eq_true, beq_iff_eq] at hcounted
    obtain ⟨⟨rfl, rfl⟩, rfl⟩ := hcounted
    exact ⟨handler, hmem⟩
  · rintro ⟨handler, hmem⟩
    exact ⟨_, hmem, by simp⟩

theorem has_fsRefcount_iff (hr : r.Counted) (projectId : ProjectId) :
    r.fsRefcount.has projectId = true ↔ ∃ handler, r.Registered .fs projectId handler := by
  rw [← fsCount_pos_iff, JsMap.has, hr.refcount]
  by_cases hcount : r.fsCount projectId = 0
  · simp [hcount]
  · simp [hcount, Nat.pos_of_ne_zero hcount]

theorem has_gitHandlers_iff (hr : r.Counted) (projectId : ProjectId) :
    r.gitHandlers.has projectId = true ↔ ∃ handler, r.Registered .git projectId handler := by
  have hhandlers := hr.handlers .git projectId
  simp only [handlersOf] at hhandlers
  rw [JsMap.has_eq_true_iff]
  constructor
  · rintro ⟨set, hset⟩
    cases set with
    | nil => exact absurd hset (hr.nonempty projectId)
    | cons handler set => exact ⟨handler, (hhandlers handler).mp (by simp [hset])⟩
  · rintro ⟨handler, hregistered⟩
    have hmem := (hhandlers handler).mpr hregistered
    cases hget : r.gitHandlers.get projectId with
    | none => simp [hget] at hmem
    | some set => exact ⟨set, rfl⟩

theorem size_eq_zero_iff {Value : Type} (map : JsMap ProjectId Value) :
    map.size = 0 ↔ ∀ projectId, map.has projectId = false := by
  rw [JsMap.size, List.length_eq_zero_iff]
  constructor
  · intro hnil projectId
    simp [JsMap.has, JsMap.get, hnil]
  · intro hnone
    by_contra hne
    obtain ⟨⟨projectId, value⟩, hmem⟩ := List.exists_mem_of_ne_nil _ hne
    have hget := (map.mem_entries_iff projectId value).mp hmem
    have hhas := hnone projectId
    simp [JsMap.has, hget] at hhas

/-- The maps are empty exactly when no subscription is active. -/
theorem isIdle_iff (hr : r.Counted) :
    r.isIdle = true ↔ ∀ subscription ∈ r.subscriptions, subscription.active = false := by
  simp only [isIdle, Bool.and_eq_true, beq_iff_eq, size_eq_zero_iff]
  constructor
  · rintro ⟨hfs, hgit⟩ ⟨topic, projectId, handler, active⟩ hmem
    cases active with
    | false => rfl
    | true =>
      cases topic with
      | fs =>
        have hhas := (has_fsRefcount_iff hr projectId).mpr ⟨handler, hmem⟩
        rw [hfs projectId] at hhas
        cases hhas
      | git =>
        have hhas := (has_gitHandlers_iff hr projectId).mpr ⟨handler, hmem⟩
        rw [hgit projectId] at hhas
        cases hhas
  · intro hnone
    constructor
    · intro projectId
      rw [← Bool.not_eq_true, has_fsRefcount_iff hr]
      rintro ⟨handler, hmem⟩
      cases hnone _ hmem
    · intro projectId
      rw [← Bool.not_eq_true, has_gitHandlers_iff hr]
      rintro ⟨handler, hmem⟩
      cases hnone _ hmem

/-- The projects that are announced anew are those with an active subscription. -/
theorem mem_projectIds_iff (hr : r.Counted) (projectId : ProjectId) :
    projectId ∈ r.projectIds ↔ ∃ topic handler, r.Registered topic projectId handler := by
  rw [projectIds, List.mem_eraseDups, List.mem_append, JsMap.mem_keys_iff, JsMap.mem_keys_iff,
    ← JsMap.has_eq_true_iff, ← JsMap.has_eq_true_iff, has_fsRefcount_iff hr,
    has_gitHandlers_iff hr]
  constructor
  · rintro (⟨handler, hmem⟩ | ⟨handler, hmem⟩)
    · exact ⟨.fs, handler, hmem⟩
    · exact ⟨.git, handler, hmem⟩
  · rintro ⟨topic, handler, hmem⟩
    cases topic with
    | fs => exact Or.inl ⟨handler, hmem⟩
    | git => exact Or.inr ⟨handler, hmem⟩

/-! ## Subscribing -/

theorem get_addTo (handlers : JsMap ProjectId (List ℕ)) (projectId : ProjectId) (handler : ℕ)
    (other : ProjectId) :
    ((addTo handlers projectId handler).get other).getD [] =
      if other = projectId then
        if handler ∈ (handlers.get projectId).getD [] then (handlers.get projectId).getD []
        else (handlers.get projectId).getD [] ++ [handler]
      else (handlers.get other).getD [] := by
  unfold addTo
  rw [JsMap.get_set]
  split <;> rfl

/-- A handler is added to a set once. -/
theorem nodup_addTo {handlers : JsMap ProjectId (List ℕ)} (projectId : ProjectId) (handler : ℕ)
    (hnodup : ∀ other, ((handlers.get other).getD []).Nodup) (other : ProjectId) :
    (((addTo handlers projectId handler).get other).getD []).Nodup := by
  rw [get_addTo]
  split
  · split
    · exact hnodup projectId
    · rename_i hnew
      exact List.nodup_append.mpr ⟨hnodup projectId, List.nodup_singleton handler, by
        intro first hfirst last hlast heq
        exact hnew (List.mem_singleton.mp hlast ▸ heq ▸ hfirst)⟩
  · exact hnodup other

theorem mem_addTo {handlers : JsMap ProjectId (List ℕ)} (projectId : ProjectId) (handler : ℕ)
    (other : ProjectId) (member : ℕ) :
    member ∈ ((addTo handlers projectId handler).get other).getD [] ↔
      member ∈ (handlers.get other).getD [] ∨ (other = projectId ∧ member = handler) := by
  rw [get_addTo]
  by_cases hother : other = projectId
  · subst hother
    rw [if_pos rfl]
    split
    · rename_i hold
      constructor
      · exact Or.inl
      · rintro (hmem | ⟨-, rfl⟩)
        · exact hmem
        · exact hold
    · simp
  · simp [hother]

theorem registered_append_iff (subscription : Subscription) (hactive : subscription.active = true)
    (after : Registry) (hafter : after.subscriptions = r.subscriptions ++ [subscription])
    (topic : Topic) (projectId : ProjectId) (handler : ℕ) :
    after.Registered topic projectId handler ↔ r.Registered topic projectId handler ∨
      (topic = subscription.topic ∧ projectId = subscription.projectId ∧
        handler = subscription.handler) := by
  obtain ⟨topic', projectId', handler', active'⟩ := subscription
  dsimp only at hactive
  subst hactive
  simp [Registered, hafter]

theorem counted_addFs (hr : r.Counted) (projectId : ProjectId) (handler : ℕ) :
    (r.addFs projectId handler).Counted := by
  have hregistered := registered_append_iff (r := r) ⟨.fs, projectId, handler, true⟩ rfl
    (r.addFs projectId handler) rfl
  have hcount (other : ProjectId) : (r.addFs projectId handler).fsCount other =
      r.fsCount other + if projectId = other then 1 else 0 := by
    simp [fsCount, addFs, List.countP_append, List.countP_singleton]
  constructor
  · intro other
    rw [hcount]
    by_cases hother : projectId = other
    · subst hother
      have hold : (r.fsRefcount.get projectId).getD 0 = r.fsCount projectId := by
        rw [hr.refcount]
        split <;> simp_all
      simp [addFs, hold]
    · rw [if_neg hother, Nat.add_zero, ← hr.refcount]
      exact JsMap.get_set_of_ne _ _ (Ne.symm hother)
  · intro topic other
    cases topic with
    | fs => exact nodup_addTo projectId handler (hr.nodup .fs) other
    | git => exact hr.nodup .git other
  · intro topic other member
    rw [hregistered, ← hr.handlers]
    cases topic with
    | fs => simpa [handlersOf, addFs] using mem_addTo projectId handler other member
    | git => simp [handlersOf, addFs]
  · exact hr.nonempty

theorem counted_addGit (hr : r.Counted) (projectId : ProjectId) (handler : ℕ) :
    (r.addGit projectId handler).Counted := by
  have hregistered := registered_append_iff (r := r) ⟨.git, projectId, handler, true⟩ rfl
    (r.addGit projectId handler) rfl
  constructor
  · intro other
    have hcount : (r.addGit projectId handler).fsCount other = r.fsCount other := by
      simp [fsCount, addGit, List.countP_append]
    rw [hcount]
    exact hr.refcount other
  · intro topic other
    cases topic with
    | fs => exact hr.nodup .fs other
    | git => exact nodup_addTo projectId handler (hr.nodup .git) other
  · intro topic other member
    rw [hregistered, ← hr.handlers]
    cases topic with
    | fs => simp [handlersOf, addGit]
    | git => simpa [handlersOf, addGit] using mem_addTo projectId handler other member
  · intro other
    simp only [addGit, addTo, JsMap.get_set]
    split
    · split
      · rename_i hmem
        exact fun hnil ↦ by simp [Option.some.inj hnil] at hmem
      · simp
    · exact hr.nonempty other

/-! ## Unsubscribing -/

section

variable {index : ℕ} {subscription : Subscription}
  (hget : r.subscriptions[index]? = some subscription)

include hget

/-- A subscription stands between the ones before and behind it. -/
theorem exists_split : ∃ before after, r.subscriptions = before ++ subscription :: after ∧
      (r.retire index).subscriptions = before ++ { subscription with active := false } :: after ∧
      (¬r.IsShared index subscription → subscription ∉ before ∧ subscription ∉ after) := by
  obtain ⟨hlt, rfl⟩ := List.getElem?_eq_some_iff.mp hget
  refine ⟨r.subscriptions.take index, r.subscriptions.drop (index + 1), ?_, ?_, ?_⟩
  · rw [List.getElem_cons_drop, List.take_append_drop]
  · exact List.modify_eq_take_cons_drop hlt
  · intro hshared
    constructor
    · intro hmem
      obtain ⟨other, hother⟩ := List.mem_iff_getElem?.mp hmem
      rw [List.getElem?_take] at hother
      split at hother
      · rename_i hother'
        exact hshared ⟨other, Nat.ne_of_lt hother', hother⟩
      · cases hother
    · intro hmem
      obtain ⟨other, hother⟩ := List.mem_iff_getElem?.mp hmem
      rw [List.getElem?_drop] at hother
      exact hshared ⟨index + 1 + other, by omega, hother⟩

/-- A retired subscription that is not shared leaves the other handlers registered. -/
theorem registered_retire_iff (hshared : ¬r.IsShared index subscription) (topic : Topic)
    (projectId : ProjectId) (handler : ℕ) :
    (r.retire index).Registered topic projectId handler ↔
      r.Registered topic projectId handler ∧
        (⟨topic, projectId, handler, true⟩ : Subscription) ≠ subscription := by
  obtain ⟨before, after, hsplit, hretired, halone⟩ := exists_split hget
  obtain ⟨hbefore, hafter⟩ := halone hshared
  simp only [Registered, hsplit, hretired, List.mem_append, List.mem_cons]
  constructor
  · rintro (hmem | heq | hmem)
    · exact ⟨Or.inl hmem, fun heq ↦ hbefore (heq ▸ hmem)⟩
    · exact absurd (congrArg Subscription.active heq) (by simp)
    · exact ⟨Or.inr (Or.inr hmem), fun heq ↦ hafter (heq ▸ hmem)⟩
  · rintro ⟨hmem | heq | hmem, hne⟩
    · exact Or.inl hmem
    · exact absurd heq hne
    · exact Or.inr (Or.inr hmem)

theorem fsCount_retire (hactive : subscription.active = true) (projectId : ProjectId) :
    r.fsCount projectId = (r.retire index).fsCount projectId +
      if subscription.topic = .fs ∧ subscription.projectId = projectId then 1 else 0 := by
  obtain ⟨before, after, hsplit, hretired, -⟩ := exists_split hget
  simp only [fsCount, hsplit, hretired, List.countP_append, List.countP_cons, hactive]
  simp only [Bool.true_and, Bool.false_and, Bool.and_eq_true, beq_iff_eq, Bool.false_eq_true,
    if_false, Nat.add_zero]
  omega

end

/-- The handler of a subscription that is not shared is taken out of its set. -/
theorem counted_of_erased (hr : r.Counted) {index : ℕ} {subscription : Subscription}
    (hget : r.subscriptions[index]? = some subscription) (hactive : subscription.active = true)
    (hshared : ¬r.IsShared index subscription) {after : Registry}
    (hsubscriptions : after.subscriptions = (r.retire index).subscriptions)
    (hrefcount : ∀ other, after.fsRefcount.get other =
      if (r.retire index).fsCount other = 0 then none else some ((r.retire index).fsCount other))
    (hhandlers : ∀ topic other, after.handlersOf topic other =
      if topic = subscription.topic ∧ other = subscription.projectId then
        (r.handlersOf subscription.topic subscription.projectId).erase subscription.handler
      else r.handlersOf topic other)
    (hnonempty : ∀ other, after.gitHandlers.get other ≠ some []) : after.Counted := by
  obtain ⟨ended, projectId, handler, active⟩ := subscription
  dsimp only at hactive hhandlers
  subst hactive
  have hsame (topic : Topic) (other : ProjectId) (member : ℕ) :
      after.Registered topic other member ↔ (r.retire index).Registered topic other member := by
    rw [Registered, hsubscriptions]
    rfl
  constructor
  · intro other
    rw [hrefcount, fsCount, fsCount, hsubscriptions]
  · intro topic other
    rw [hhandlers]
    split
    · exact (hr.nodup ended projectId).erase handler
    · exact hr.nodup topic other
  · intro topic other member
    rw [hhandlers, hsame, registered_retire_iff hget hshared, ← hr.handlers]
    by_cases hset : topic = ended ∧ other = projectId
    · obtain ⟨rfl, rfl⟩ := hset
      simp [(hr.nodup topic other).mem_erase_iff, and_comm]
    · rw [if_neg hset]
      refine (and_iff_left ?_).symm
      intro heq
      cases heq
      exact hset ⟨rfl, rfl⟩
  · exact hnonempty

/-- The handlers without one, and an empty set for the last subscription. -/
theorem handlersOf_removeFs {projectId : ProjectId} {handler : ℕ}
    (hlast : (r.fsRefcount.get projectId).getD 1 - 1 = 0 →
      (r.handlersOf .fs projectId).erase handler = []) (topic : Topic) (other : ProjectId) :
    (r.removeFs projectId handler).handlersOf topic other =
      if topic = .fs ∧ other = projectId then (r.handlersOf .fs projectId).erase handler
      else r.handlersOf topic other := by
  have herased : ((r.fsHandlers.get projectId).map (·.erase handler)).getD [] =
      ((r.fsHandlers.get projectId).getD []).erase handler := by
    cases r.fsHandlers.get projectId <;> rfl
  simp only [handlersOf] at hlast
  unfold removeFs
  dsimp only
  cases topic with
  | git => split <;> simp [handlersOf]
  | fs =>
    by_cases hother : other = projectId
    · subst hother
      split
      · rename_i hzero
        simp [handlersOf, hlast hzero]
      · simp [handlersOf, JsMap.get_modify, herased]
    · split
      · simp [handlersOf, hother, JsMap.get_delete_of_ne, JsMap.get_modify]
      · simp [handlersOf, hother, JsMap.get_modify]

/-- Ending a subscription to file events that is not shared keeps the counts. -/
theorem counted_removeFs (hr : r.Counted) {index : ℕ} {projectId : ProjectId} {handler : ℕ}
    (hget : r.subscriptions[index]? = some ⟨.fs, projectId, handler, true⟩)
    (hshared : ¬r.IsShared index ⟨.fs, projectId, handler, true⟩) :
    ((r.retire index).removeFs projectId handler).Counted := by
  have hcount := fsCount_retire hget rfl
  have hthis := hcount projectId
  simp only [true_and, if_true] at hthis
  have hold : ((r.retire index).fsRefcount.get projectId).getD 1 - 1 =
      (r.retire index).fsCount projectId := by
    have hmany : r.fsCount projectId ≠ 0 := by omega
    have hrefcount : (r.retire index).fsRefcount.get projectId = some (r.fsCount projectId) := by
      rw [retire, hr.refcount, if_neg hmany]
    rw [hrefcount, Option.getD_some]
    omega
  have hlast (hzero : (r.retire index).fsCount projectId = 0) :
      (r.handlersOf .fs projectId).erase handler = [] := by
    apply List.eq_nil_iff_forall_not_mem.mpr
    intro member hmem
    rw [(hr.nodup .fs projectId).mem_erase_iff, hr.handlers] at hmem
    have hregistered : (r.retire index).Registered .fs projectId member := by
      refine (registered_retire_iff hget hshared .fs projectId member).mpr ⟨hmem.2, ?_⟩
      intro heq
      exact hmem.1 (congrArg Subscription.handler heq)
    have hpos := (fsCount_pos_iff (r := r.retire index) projectId).mpr ⟨member, hregistered⟩
    omega
  refine counted_of_erased hr hget rfl hshared ?_ ?_ ?_ ?_
  · unfold removeFs
    dsimp only
    split <;> rfl
  · intro other
    unfold removeFs
    rw [hold]
    dsimp only
    by_cases hother : other = projectId
    · subst hother
      split
      · simp
      · simp
    · have hrefcount := hr.refcount other
      rw [show r.fsCount other = (r.retire index).fsCount other by
        simpa [Ne.symm hother] using hcount other] at hrefcount
      rw [← hrefcount]
      split
      · exact JsMap.get_delete_of_ne _ hother
      · exact JsMap.get_set_of_ne _ _ hother
  · exact handlersOf_removeFs fun hzero ↦ hlast (hold ▸ hzero)
  · intro other
    unfold removeFs
    dsimp only
    split
    · exact hr.nonempty other
    · exact hr.nonempty other

/-- The set of a project without a handler, where an empty one is not kept. -/
theorem get_removeGit (projectId : ProjectId) (handler : ℕ) (other : ProjectId) :
    (r.removeGit projectId handler).gitHandlers.get other =
      if other = projectId then
        ((r.gitHandlers.get projectId).map (·.erase handler)).filter (!·.isEmpty)
      else r.gitHandlers.get other := by
  have hmodified : (r.gitHandlers.modify projectId (·.erase handler)).get projectId =
      (r.gitHandlers.get projectId).map (·.erase handler) := by
    rw [JsMap.get_modify, if_pos rfl]
  simp only [removeGit, hmodified]
  by_cases hnil : (r.gitHandlers.get projectId).map (·.erase handler) = some []
  · rw [if_pos hnil]
    by_cases hother : other = projectId
    · subst hother
      rw [JsMap.get_delete_self, if_pos rfl, hnil]
      rfl
    · rw [if_neg hother, JsMap.get_delete_of_ne _ hother, JsMap.get_modify, if_neg hother]
  · rw [if_neg hnil, JsMap.get_modify]
    by_cases hother : other = projectId
    · subst hother
      cases hset : r.gitHandlers.get other with
      | none => simp
      | some set =>
        rw [hset, Option.map_some, Option.some_inj] at hnil
        simp [hnil, Option.filter]
    · rw [if_neg hother, if_neg hother]

theorem getD_filter_isEmpty (set : Option (List ℕ)) (handler : ℕ) :
    ((set.map (·.erase handler)).filter (!·.isEmpty)).getD [] = (set.getD []).erase handler := by
  cases set with
  | none => rfl
  | some set =>
    by_cases hnil : set.erase handler = []
    · simp [hnil, Option.filter]
    · simp [hnil, Option.filter]

/-- Ending a subscription to git events that is not shared keeps the counts. -/
theorem counted_removeGit (hr : r.Counted) {index : ℕ} {projectId : ProjectId} {handler : ℕ}
    (hget : r.subscriptions[index]? = some ⟨.git, projectId, handler, true⟩)
    (hshared : ¬r.IsShared index ⟨.git, projectId, handler, true⟩) :
    ((r.retire index).removeGit projectId handler).Counted := by
  have hcount := fsCount_retire hget rfl
  refine counted_of_erased hr hget rfl hshared rfl ?_ ?_ ?_
  · intro other
    have hthis := hcount other
    simp only [reduceCtorEq, false_and, if_false, Nat.add_zero] at hthis
    have hrefcount := hr.refcount other
    rw [hthis] at hrefcount
    exact hrefcount
  · intro topic other
    cases topic with
    | fs => rfl
    | git =>
      simp only [handlersOf, true_and]
      rw [get_removeGit]
      split
      · exact getD_filter_isEmpty (r.gitHandlers.get projectId) handler
      · rfl
  · intro other
    rw [get_removeGit]
    split
    · intro hnil
      have hnonempty := (Option.filter_eq_some_iff.mp hnil).2
      simp at hnonempty
    · exact hr.nonempty other

/-- Ending a subscription that is not shared keeps the counts. -/
theorem counted_remove (hr : r.Counted) {index : ℕ} {subscription : Subscription}
    (hget : r.subscriptions[index]? = some subscription) (hactive : subscription.active = true)
    (hshared : ¬r.IsShared index subscription) :
    ((r.retire index).remove subscription).Counted := by
  obtain ⟨topic, projectId, handler, active⟩ := subscription
  dsimp only at hactive
  subst hactive
  cases topic with
  | fs => exact counted_removeFs hr hget hshared
  | git => exact counted_removeGit hr hget hshared

theorem subscriptions_remove (subscription : Subscription) :
    (r.remove subscription).subscriptions = r.subscriptions := by
  unfold remove
  split
  · unfold removeFs
    dsimp only
    split <;> rfl
  · rfl

theorem mem_handlersOf_removeFs {projectId : ProjectId} {handler member : ℕ}
    (hmem : member ∈ (r.removeFs projectId handler).handlersOf .fs projectId) :
    member ∈ (r.handlersOf .fs projectId).erase handler := by
  have hmodified : (r.fsHandlers.modify projectId (·.erase handler)).get projectId =
      (r.fsHandlers.get projectId).map (·.erase handler) := by
    rw [JsMap.get_modify, if_pos rfl]
  simp only [handlersOf, removeFs] at hmem ⊢
  by_cases hlast : (r.fsRefcount.get projectId).getD 1 - 1 = 0
  · rw [if_pos hlast] at hmem
    simp at hmem
  · rw [if_neg hlast] at hmem
    dsimp only at hmem
    rw [hmodified] at hmem
    cases hset : r.fsHandlers.get projectId with
    | none => simp [hset] at hmem
    | some set => simpa [hset] using hmem

/-- Ending a subscription drops its handler, although another one may share it. -/
theorem not_mem_handlersOf_remove (hr : r.Counted) (index : ℕ) (subscription : Subscription) :
    subscription.handler ∉ ((r.retire index).remove subscription).handlersOf subscription.topic
      subscription.projectId := by
  have hnodup : ((r.retire index).handlersOf subscription.topic subscription.projectId).Nodup :=
    hr.nodup subscription.topic subscription.projectId
  have hgone := hnodup.not_mem_erase (a := subscription.handler)
  unfold remove
  cases htopic : subscription.topic with
  | fs =>
    rw [htopic] at hgone
    exact fun hmem ↦ hgone (mem_handlersOf_removeFs hmem)
  | git =>
    rw [htopic] at hgone
    simp only [handlersOf] at hgone ⊢
    rw [get_removeGit, if_pos rfl, getD_filter_isEmpty]
    exact hgone

end Registry

end Flockctl.GlobalWs
