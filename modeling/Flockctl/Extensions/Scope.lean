import Flockctl.Extensions.Levels

/-!
# What the disable lists leave

The entries in scope of a resolver, with the two disable lists that speak about them. What should
be visible is said without an order of insertions and deletions: the entries that no config in
scope disables at their level, the project's before the workspace's before the global ones. The
fold of the resolvers yields this set exactly where every global entry that a disabled workspace
entry uncovers is covered again.
-/

namespace Flockctl.Extensions

open Collections

variable {Item : Type} [Installed Item]

/-- What a resolver reads: the entries of the levels, each under one name of its level, the skills a
project brings along itself, and the disable lists. -/
structure Scope (Item : Type) [Installed Item] where
  globals : List Item
  workspaces : List Item
  projects : List Item
  native : List Item
  wsDisables : Option (List DisableEntry)
  projDisables : Option (List DisableEntry)
  globals_level : ∀ item ∈ globals, Installed.level item = .global
  workspaces_level : ∀ item ∈ workspaces, Installed.level item = .workspace
  projects_level : ∀ item ∈ projects, Installed.level item = .project
  globals_nodup : (globals.map Installed.name).Nodup
  workspaces_nodup : (workspaces.map Installed.name).Nodup
  projects_nodup : (projects.map Installed.name).Nodup
  native_nodup : (native.map Installed.name).Nodup

/-- `disables` names the entry at its level. -/
def Names (disables : Option (List DisableEntry)) (item : Item) : Prop :=
  Installed.name item ∈ disabledNamesForLevel disables (Installed.level item)

theorem names_iff (disables : Option (List DisableEntry)) (item : Item) :
    Names disables item ↔
      ∃ entries, disables = some entries ∧
        ⟨Installed.name item, Installed.level item⟩ ∈ entries := by
  unfold Names disabledNamesForLevel
  cases disables with
  | none => simp
  | some entries =>
    simp only [List.mem_map, List.mem_filter, decide_eq_true_eq, Option.some.injEq,
      exists_eq_left']
    constructor
    · rintro ⟨entry, ⟨hentry, hlevel⟩, hname⟩
      rw [← hname, ← hlevel]
      exact hentry
    · exact fun hentry ↦ ⟨_, ⟨hentry, rfl⟩, rfl⟩

def Level.rank : Level → ℕ
  | .global => 0
  | .workspace => 1
  | .project => 2

namespace Scope

/-- A config in scope disables the entry: the workspace's config speaks about the levels a workspace
sees, the project's about all three. -/
def Disabled (scope : Scope Item) (item : Item) : Prop :=
  Installed.level item ≠ .project ∧ Names scope.wsDisables item ∨ Names scope.projDisables item

/-- The entries of the three levels that no config disables. -/
def enabled (scope : Scope Item) : Set Item :=
  {item | (item ∈ scope.globals ∨ item ∈ scope.workspaces ∨ item ∈ scope.projects) ∧
    ¬scope.Disabled item}

/-- What should be visible. -/
def visible (scope : Scope Item) : Set Item :=
  layOver Installed.name {item | item ∈ scope.native}
    (effective Installed.name (fun item ↦ (Installed.level item).rank) scope.enabled)

/-- Every enabled global entry that loses its workspace entry to the project's config is covered by
an enabled entry of the project, or by a skill of its own. -/
def CoveredAgain (scope : Scope Item) : Prop :=
  ∀ lower ∈ scope.globals, ∀ upper ∈ scope.workspaces,
    Installed.name lower = Installed.name upper → ¬scope.Disabled lower →
    ¬Names scope.wsDisables upper → Names scope.projDisables upper →
    ∃ cover, (cover ∈ scope.native ∨ cover ∈ scope.projects ∧ ¬scope.Disabled cover) ∧
      Installed.name cover = Installed.name lower

/-- The map a resolver fills. -/
def resolve (scope : Scope Item) : JsMap Name Item :=
  setAll scope.native <| layProject scope.projDisables scope.projects <|
    layWorkspace scope.wsDisables scope.workspaces <| setAll scope.globals JsMap.empty

/-- What is left of the workspace entries once the workspace's own config is applied. -/
def keptWorkspaces (scope : Scope Item) : Set Item :=
  {item | item ∈ scope.workspaces ∧ ¬Names scope.wsDisables item}

/-- What is left of the global entries. -/
def keptGlobals (scope : Scope Item) : Set Item :=
  {item | item ∈ scope.globals ∧ ¬scope.Disabled item}

def keptProjects (scope : Scope Item) : Set Item :=
  {item | item ∈ scope.projects ∧ ¬scope.Disabled item}

/-- The workspace entries that the project's config keeps as well. -/
def enabledWorkspaces (scope : Scope Item) : Set Item :=
  {item | item ∈ scope.workspaces ∧ ¬scope.Disabled item}

/-- The set the fold builds: a workspace entry overrides the global one before the project's config
is asked about it. -/
def folded (scope : Scope Item) : Set Item :=
  layOver Installed.name {item | item ∈ scope.native} <|
    layOver Installed.name scope.keptProjects <|
      {item ∈ layOver Installed.name scope.keptWorkspaces scope.keptGlobals |
        ¬(Installed.level item = .workspace ∧ Names scope.projDisables item)}

theorem mem_layer_iff (disables : Option (List DisableEntry)) {level : Level} {items : List Item}
    (hlevel : ∀ item ∈ items, Installed.level item = level) (item : Item) :
    (item ∈ items ∧ ((disabledNamesForLevel disables level).contains (Installed.name item)) =
      false) ↔ item ∈ items ∧ ¬Names disables item := by
  refine and_congr_right fun hitem ↦ ?_
  rw [Names, hlevel item hitem, List.contains_eq_mem, decide_eq_false_iff_not]

variable (scope : Scope Item)

theorem disabled_iff_of_project {item : Item}
    (hlevel : Installed.level item = .project) :
    scope.Disabled item ↔ Names scope.projDisables item := by
  rw [Disabled, hlevel]
  exact or_iff_right fun h ↦ h.1 rfl

theorem disabled_iff_of_ne_project {item : Item}
    (hlevel : Installed.level item ≠ .project) :
    scope.Disabled item ↔ Names scope.wsDisables item ∨ Names scope.projDisables item := by
  rw [Disabled]
  exact or_congr_left (and_iff_right hlevel)

theorem setAll_holds {map : JsMap Name Item} {items : Set Item} {layer : List Item}
    (hnodup : (layer.map Installed.name).Nodup) (h : Holds Installed.name map items) :
    Holds Installed.name (setAll layer map) (layOver Installed.name {item | item ∈ layer} items) := by
  have hset := h.setUnless (fun _ ↦ false) hnodup
  simp only [and_true] at hset
  exact hset

/-- The workspace's part, over the global entries. -/
theorem layWorkspace_holds :
    Holds Installed.name
      (layWorkspace scope.wsDisables scope.workspaces (setAll scope.globals JsMap.empty))
      (layOver Installed.name scope.keptWorkspaces
        {item | item ∈ scope.globals ∧ ¬Names scope.wsDisables item}) := by
  have hglobals := setAll_holds scope.globals_nodup (holds_empty fun item : Item ↦ Installed.name item)
  rw [layOver_empty] at hglobals
  have hdeleted := hglobals.deleteWhere
    (fun s ↦ decide (Installed.level s = .global))
    (disabledNamesForLevel scope.wsDisables .global)
  have hset := hdeleted.setUnless
    (fun s ↦ (disabledNamesForLevel scope.wsDisables .workspace).contains (Installed.name s))
    scope.workspaces_nodup
  simp only [mem_layer_iff scope.wsDisables scope.workspaces_level] at hset
  have hlower : {item ∈ {item | item ∈ scope.globals} |
      ¬(Installed.name item ∈ disabledNamesForLevel scope.wsDisables .global ∧
        decide (Installed.level item = Level.global) = true)} =
      {item | item ∈ scope.globals ∧ ¬Names scope.wsDisables item} := by
    ext item
    refine and_congr_right fun hitem ↦ ?_
    have hlevel := scope.globals_level item hitem
    simp only [Names, hlevel, decide_true, and_true]
  rw [hlower] at hset
  exact hset

/-- Deleting at the global and then at the workspace level, as the project's config says. -/
theorem delete_layOver_eq :
    {item ∈ {item ∈ layOver Installed.name scope.keptWorkspaces
        {item | item ∈ scope.globals ∧ ¬Names scope.wsDisables item} |
      ¬(Installed.name item ∈ disabledNamesForLevel scope.projDisables .global ∧
        decide (Installed.level item = Level.global) = true)} |
      ¬(Installed.name item ∈ disabledNamesForLevel scope.projDisables .workspace ∧
        decide (Installed.level item = Level.workspace) = true)} =
    {item ∈ layOver Installed.name scope.keptWorkspaces scope.keptGlobals |
      ¬(Installed.level item = .workspace ∧ Names scope.projDisables item)} := by
  ext item
  simp only [Set.mem_ofPred_eq, mem_layOver, keptGlobals, decide_eq_true_eq]
  constructor
  · rintro ⟨⟨hmem, hglobal⟩, hworkspace⟩
    refine ⟨?_, fun h ↦ hworkspace ⟨?_, h.1⟩⟩
    · refine hmem.imp_right fun h ↦ ⟨⟨h.1.1, fun hdisabled ↦ ?_⟩, h.2⟩
      have hlevel := scope.globals_level item h.1.1
      rw [disabled_iff_of_ne_project scope (by rw [hlevel]; decide)] at hdisabled
      rcases hdisabled with hws | hproj
      · exact h.1.2 hws
      · rw [Names, hlevel] at hproj
        exact hglobal ⟨hproj, hlevel⟩
    · have hnames := h.2
      rwa [Names, h.1] at hnames
  · rintro ⟨hmem, hworkspace⟩
    refine ⟨⟨?_, ?_⟩, fun h ↦ hworkspace ⟨h.2, ?_⟩⟩
    · refine hmem.imp_right fun h ↦ ⟨⟨h.1.1, fun hws ↦ h.1.2 ?_⟩, h.2⟩
      have hlevel := scope.globals_level item h.1.1
      rw [disabled_iff_of_ne_project scope (by rw [hlevel]; decide)]
      exact .inl hws
    · rintro ⟨hnames, hlevel⟩
      rcases hmem with hupper | hlower
      · rw [scope.workspaces_level item hupper.1] at hlevel
        cases hlevel
      · refine hlower.1.2 ?_
        rw [disabled_iff_of_ne_project scope (by rw [hlevel]; decide)]
        refine .inr ?_
        rw [Names, hlevel]
        exact hnames
    · rw [Names, h.2]
      exact h.1

/-- The map of a resolver holds the folded set. -/
theorem resolve_holds :
    Holds Installed.name scope.resolve scope.folded := by
  have hdeleted := ((scope.layWorkspace_holds.deleteWhere
    (fun s ↦ decide (Installed.level s = .global))
    (disabledNamesForLevel scope.projDisables .global)).deleteWhere
    (fun s ↦ decide (Installed.level s = .workspace))
    (disabledNamesForLevel scope.projDisables .workspace))
  rw [delete_layOver_eq] at hdeleted
  have hset := hdeleted.setUnless
    (fun s ↦ (disabledNamesForLevel scope.projDisables .project).contains (Installed.name s))
    scope.projects_nodup
  simp only [mem_layer_iff scope.projDisables scope.projects_level] at hset
  have hprojects : {item | item ∈ scope.projects ∧ ¬Names scope.projDisables item} =
      scope.keptProjects := by
    ext item
    exact and_congr_right fun hitem ↦ not_congr
      (scope.disabled_iff_of_project (scope.projects_level item hitem)).symm
  rw [hprojects] at hset
  exact setAll_holds scope.native_nodup hset

/-- What should be visible, layer by layer. -/
theorem visible_eq :
    scope.visible = layOver Installed.name {item | item ∈ scope.native}
      (layOver Installed.name scope.keptProjects
        (layOver Installed.name scope.enabledWorkspaces scope.keptGlobals)) := by
  have hproject : ∀ item ∈ scope.keptProjects, (Installed.level item).rank = 2 :=
    fun item hitem ↦ by rw [scope.projects_level item hitem.1, Level.rank]
  have hworkspace : ∀ item ∈ scope.enabledWorkspaces, (Installed.level item).rank = 1 :=
    fun item hitem ↦ by rw [scope.workspaces_level item hitem.1, Level.rank]
  have hglobal : ∀ item ∈ scope.keptGlobals, (Installed.level item).rank = 0 :=
    fun item hitem ↦ by rw [scope.globals_level item hitem.1, Level.rank]
  have hlower : ∀ item ∈ scope.enabledWorkspaces ∪ scope.keptGlobals,
      (Installed.level item).rank < 2 := by
    intro item hitem
    rcases hitem with hitem | hitem
    · rw [hworkspace item hitem]
      decide
    · rw [hglobal item hitem]
      decide
  have henabled : scope.enabled =
      scope.keptProjects ∪ (scope.enabledWorkspaces ∪ scope.keptGlobals) := by
    ext item
    simp only [enabled, keptProjects, enabledWorkspaces, keptGlobals, Set.mem_ofPred_eq,
      Set.mem_union]
    tauto
  rw [visible, henabled, effective_union_of_rank _ _ hproject hlower,
    effective_union_of_rank _ _ hworkspace fun item hitem ↦ by rw [hglobal item hitem]; decide,
    effective_of_rank _ _ hglobal]

theorem mem_enabledWorkspaces_iff (item : Item) :
    item ∈ scope.enabledWorkspaces ↔
      item ∈ scope.keptWorkspaces ∧ ¬Names scope.projDisables item := by
  rw [enabledWorkspaces, keptWorkspaces, Set.mem_ofPred_eq, Set.mem_ofPred_eq, and_assoc]
  refine and_congr_right fun hitem ↦ ?_
  have hlevel : Installed.level item ≠ .project := by
    rw [scope.workspaces_level item hitem]
    decide
  rw [disabled_iff_of_ne_project scope hlevel, not_or]

/-- The part of the fold below the project's entries: the enabled workspace entries, and the global
entries under no workspace entry that the workspace's own config keeps. -/
theorem mem_deleted_iff (item : Item) :
    item ∈ {item ∈ layOver Installed.name scope.keptWorkspaces scope.keptGlobals |
        ¬(Installed.level item = .workspace ∧ Names scope.projDisables item)} ↔
      item ∈ scope.enabledWorkspaces ∨
        item ∈ scope.keptGlobals ∧
          ∀ upper ∈ scope.keptWorkspaces, Installed.name upper ≠ Installed.name item := by
  rw [Set.mem_ofPred_eq, mem_layOver, mem_enabledWorkspaces_iff]
  constructor
  · rintro ⟨hupper | hlower, hkept⟩
    · exact .inl ⟨hupper, fun h ↦ hkept ⟨scope.workspaces_level item hupper.1, h⟩⟩
    · exact .inr hlower
  · rintro (⟨hupper, hkept⟩ | hlower)
    · exact ⟨.inl hupper, fun h ↦ hkept h.2⟩
    · refine ⟨.inr hlower, fun h ↦ ?_⟩
      cases (scope.globals_level item hlower.1.1).symm.trans h.1

theorem mem_folded_iff (item : Item) :
    item ∈ scope.folded ↔
      item ∈ scope.native ∨
        (item ∈ scope.keptProjects ∨
          (item ∈ scope.enabledWorkspaces ∨ item ∈ scope.keptGlobals ∧
            ∀ upper ∈ scope.keptWorkspaces, Installed.name upper ≠ Installed.name item) ∧
            ∀ other ∈ scope.keptProjects, Installed.name other ≠ Installed.name item) ∧
          ∀ other ∈ scope.native, Installed.name other ≠ Installed.name item := by
  rw [folded, mem_layOver, mem_layOver, mem_deleted_iff]
  rfl

theorem mem_visible_iff (item : Item) :
    item ∈ scope.visible ↔
      item ∈ scope.native ∨
        (item ∈ scope.keptProjects ∨
          (item ∈ scope.enabledWorkspaces ∨ item ∈ scope.keptGlobals ∧
            ∀ upper ∈ scope.enabledWorkspaces, Installed.name upper ≠ Installed.name item) ∧
            ∀ other ∈ scope.keptProjects, Installed.name other ≠ Installed.name item) ∧
          ∀ other ∈ scope.native, Installed.name other ≠ Installed.name item := by
  rw [visible_eq, mem_layOver, mem_layOver, mem_layOver]
  rfl

/-- The fold shows nothing that should not be visible. -/
theorem folded_subset_visible : scope.folded ⊆ scope.visible := by
  intro item hitem
  rw [mem_folded_iff] at hitem
  rw [mem_visible_iff]
  refine hitem.imp_right (And.imp_left (Or.imp_right (And.imp_left (Or.imp_right ?_))))
  exact fun h ↦ ⟨h.1, fun upper hupper ↦
    h.2 upper ((scope.mem_enabledWorkspaces_iff upper).mp hupper).1⟩

/-- What should be visible and is not shown is a global entry under a workspace entry that only the
project's config disables. -/
theorem exists_of_mem_visible_of_not_mem_folded {item : Item}
    (hvisible : item ∈ scope.visible) (hfolded : item ∉ scope.folded) :
    item ∈ scope.keptGlobals ∧
      (∃ upper ∈ scope.keptWorkspaces, Installed.name upper = Installed.name item ∧
        Names scope.projDisables upper) ∧
      (∀ other ∈ scope.keptProjects, Installed.name other ≠ Installed.name item) ∧
      ∀ other ∈ scope.native, Installed.name other ≠ Installed.name item := by
  rw [mem_folded_iff] at hfolded
  rw [mem_visible_iff] at hvisible
  rcases hvisible with hnative | ⟨hproject | ⟨hworkspace | hglobal, hprojects⟩, hnatives⟩
  · exact absurd (.inl hnative) hfolded
  · exact absurd (.inr ⟨.inl hproject, hnatives⟩) hfolded
  · exact absurd (.inr ⟨.inr ⟨.inl hworkspace, hprojects⟩, hnatives⟩) hfolded
  · refine ⟨hglobal.1, ?_, hprojects, hnatives⟩
    by_contra hnone
    refine hfolded (.inr ⟨.inr ⟨.inr ⟨hglobal.1, fun upper hupper hsame ↦ ?_⟩, hprojects⟩,
      hnatives⟩)
    by_cases hproj : Names scope.projDisables upper
    · exact hnone ⟨upper, hupper, hsame, hproj⟩
    · exact hglobal.2 upper ((scope.mem_enabledWorkspaces_iff upper).mpr ⟨hupper, hproj⟩) hsame

/-- The fold shows what should be visible exactly where the global entries that the project's config
uncovers are covered again. -/
theorem folded_eq_visible_iff :
    scope.folded = scope.visible ↔ scope.CoveredAgain := by
  constructor
  · intro heq lower hlower upper hupper hsame henabled hws hproj
    by_contra hcover
    push Not at hcover
    have hprojects : ∀ other ∈ scope.keptProjects, Installed.name other ≠ Installed.name lower :=
      fun other hother ↦ hcover other (.inr hother)
    have hnatives : ∀ other ∈ scope.native, Installed.name other ≠ Installed.name lower :=
      fun other hother ↦ hcover other (.inl hother)
    have honly : ∀ other ∈ scope.enabledWorkspaces,
        Installed.name other ≠ Installed.name lower := by
      intro other hother hname
      have hother' := (scope.mem_enabledWorkspaces_iff other).mp hother
      have : other = upper := List.inj_on_of_nodup_map scope.workspaces_nodup hother'.1.1 hupper
        (hname.trans hsame)
      exact hother'.2 (this ▸ hproj)
    have hvisible : lower ∈ scope.visible := scope.mem_visible_iff lower |>.mpr
      (.inr ⟨.inr ⟨.inr ⟨⟨hlower, henabled⟩, honly⟩, hprojects⟩, hnatives⟩)
    rw [← heq, mem_folded_iff] at hvisible
    rcases hvisible with hnative | ⟨hproject | ⟨hworkspace | hglobal, -⟩, -⟩
    · exact hnatives lower hnative rfl
    · exact hprojects lower hproject rfl
    · exact honly lower hworkspace rfl
    · exact hglobal.2 upper ⟨hupper, hws⟩ hsame.symm
  · intro hcovered
    refine Set.Subset.antisymm scope.folded_subset_visible fun item hvisible ↦ ?_
    by_contra hfolded
    obtain ⟨hglobal, ⟨upper, hupper, hsame, hproj⟩, hprojects, hnatives⟩ :=
      scope.exists_of_mem_visible_of_not_mem_folded hvisible hfolded
    obtain ⟨cover, hcover | hcover, hname⟩ :=
      hcovered item hglobal.1 upper hupper.1 hsame.symm hglobal.2 hupper.2 hproj
    · exact hnatives cover hcover hname
    · exact hprojects cover hcover hname

/-- The same of the list a resolver returns. -/
theorem values_resolve_eq_visible_iff :
    {item | item ∈ scope.resolve.entries.map Prod.snd} = scope.visible ↔ scope.CoveredAgain := by
  rw [scope.resolve_holds.values, folded_eq_visible_iff]

/-- A scope without a project's config needs no covering. -/
theorem coveredAgain_of_projDisables_eq_none
    (hnone : scope.projDisables = none) : scope.CoveredAgain := by
  intro lower _ upper _ _ _ _ hproj
  rw [names_iff, hnone] at hproj
  obtain ⟨entries, hentries, -⟩ := hproj
  cases hentries

end Scope

end Flockctl.Extensions
