import Flockctl.EditorTabs.Drift

/-!
# The tabs of a renamed file

The shell has tabs for files, commits and diffs, the editor has one for each open buffer. A rename
tells both of them the old and the new path, but not the project: the shell closes the file tabs
with the old path and opens new ones, and the editor gives its first tab with the old path the new
one.
-/

namespace Flockctl.EditorTabs.TabStore

open Collections

/-! ## The code -/

inductive Scope
  | projects
  | workspaces
  deriving DecidableEq, Repr

def Scope.text : Scope → List Char
  | .projects => "projects".toList
  | .workspaces => "workspaces".toList

structure DiffMode where
  staged : Bool := false
  base : Option (List Char) := none
  head : Option (List Char) := none
  deriving DecidableEq, Repr

def diffModeKey (mode : DiffMode) : List Char :=
  if mode.staged then "staged".toList
  else
    match mode.base, mode.head with
    | some base, some head => base ++ "..".toList ++ head
    | _, _ => "working".toList

inductive OpenTab
  | file (projectId : ProjectId) (path : Path)
  | commit (scope : Scope) (entityId : ℕ) (sha : List Char) (title : Option (List Char))
  | diff (scope : Scope) (entityId : ℕ) (path : Path) (mode : DiffMode)
  deriving DecidableEq, Repr

def idText (entityId : ℕ) : List Char := (toString entityId).toList

def commitTabId (scope : Scope) (entityId : ℕ) (sha : List Char) : List Char :=
  "commit:".toList ++ scope.text ++ ':' :: idText entityId ++ ':' :: sha

def fileTabId (projectId : ProjectId) (path : Path) : List Char :=
  "file:".toList ++ idText projectId ++ ':' :: path

def diffTabId (scope : Scope) (entityId : ℕ) (path : Path) (mode : DiffMode) : List Char :=
  "diff:".toList ++ scope.text ++ ':' :: idText entityId ++ ':' :: path ++
    ':' :: diffModeKey mode

def OpenTab.id : OpenTab → List Char
  | .file projectId path => fileTabId projectId path
  | .commit scope entityId sha _ => commitTabId scope entityId sha
  | .diff scope entityId path mode => diffTabId scope entityId path mode

local instance lawfulBEqId : LawfulBEq (List Char) := inferInstance

/-- No two tabs have one id. -/
structure StoreState where
  tabs : List OpenTab
  activeId : Option (List Char)
  banners : JsMap (List Char) ReconnectBannerState
  nodup : (tabs.map OpenTab.id).Nodup

namespace StoreState

variable (state : StoreState)

/-- A tab whose id is there is focused as it is. -/
def openTab (tab : OpenTab) : StoreState :=
  if h : tab.id ∈ state.tabs.map OpenTab.id then { state with activeId := some tab.id }
  else
    { state with
      tabs := state.tabs ++ [tab]
      activeId := some tab.id
      nodup := by
        rw [List.map_append, List.map_singleton]
        exact List.nodup_append.mpr ⟨state.nodup, List.nodup_singleton _, by
          intro id hid last hlast heq
          rw [List.mem_singleton.mp hlast] at heq
          exact h (heq ▸ hid)⟩ }

def setActive (id : List Char) : StoreState :=
  if id ∈ state.tabs.map OpenTab.id then { state with activeId := some id } else state

/-- If the tab was active, its right neighbour gets the focus, or else its left one. -/
def closeTab (id : List Char) : StoreState :=
  if id ∈ state.tabs.map OpenTab.id then
    let idx := state.tabs.findIdx (·.id = id)
    let nextTabs := state.tabs.eraseP (·.id = id)
    { tabs := nextTabs
      activeId :=
        if state.activeId = some id then (nextTabs[idx]?.or nextTabs[idx - 1]?).map OpenTab.id
        else state.activeId
      banners := state.banners.delete id
      nodup := state.nodup.sublist (List.eraseP_sublist.map _) }
  else state

/-- The tab that has the focus. -/
def activeTab : Option OpenTab :=
  state.activeId.bind fun id ↦ state.tabs.find? (·.id = id)

end StoreState

/-- What the rename handler does with a tab of the shell. -/
def followRename (source target : Path) (state : StoreState) : OpenTab → StoreState
  | .file projectId path =>
    if path = source then
      let tab := OpenTab.file projectId path
      let newTab := OpenTab.file projectId target
      let next := (state.closeTab tab.id).openTab newTab
      if state.activeId = some tab.id then next
      else
        -- `openTab` has moved the focus by now, so that the tab read here is the new one.
        match next.activeId with
        | some prior => if prior ≠ newTab.id then next.setActive prior else next
        | none => next
    else state
  | .commit _ _ _ _ | .diff _ _ _ _ => state

/-- The two stores, and the project in which each buffer was opened, which no store keeps. -/
structure Stores where
  shell : StoreState
  editor : State
  owner : TabId → ProjectId
  nodup : (editor.tabs.map Tab.id).Nodup

/-! ## What a rename should do -/

/-- The path itself, or one below it. -/
def AtOrBelow (top path : Path) : Prop := path = top ∨ top ++ ['/'] <+: path

instance decidableAtOrBelow (top path : Path) : Decidable (AtOrBelow top path) :=
  inferInstanceAs (Decidable (path = top ∨ top ++ ['/'] <+: path))

/-- A rename that has succeeded: nothing was at the target, and it is not below the source. -/
structure FsRename where
  projectId : ProjectId
  source : Path
  target : Path
  target_apart : ¬AtOrBelow source target
  source_apart : ¬AtOrBelow target source

namespace FsRename

variable (r : FsRename)

/-- The path that a path at or below the source has afterwards. -/
def newPath (path : Path) : Path := r.target ++ path.drop r.source.length

/-- The tab is one of a renamed file. -/
def Touches : OpenTab → Prop
  | .file projectId path => projectId = r.projectId ∧ AtOrBelow r.source path
  | .commit _ _ _ _ | .diff _ _ _ _ => False

def moveTab : OpenTab → OpenTab
  | .file projectId path =>
    if projectId = r.projectId ∧ AtOrBelow r.source path then .file projectId (r.newPath path)
    else .file projectId path
  | tab => tab

/-- The buffer is one of a renamed file. -/
def Holds (owner : TabId → ProjectId) (tab : Tab) : Prop :=
  owner tab.id = r.projectId ∧ AtOrBelow r.source tab.path

instance decidableHolds (owner : TabId → ProjectId) (tab : Tab) : Decidable (r.Holds owner tab) :=
  inferInstanceAs (Decidable (owner tab.id = r.projectId ∧ AtOrBelow r.source tab.path))

def moveBuffer (owner : TabId → ProjectId) (tab : Tab) : Tab :=
  if r.Holds owner tab then { tab with path := r.newPath tab.path } else tab

end FsRename

theorem ids_rename (state : State) (source target : Path) :
    (reduce state (.rename source target)).tabs.map Tab.id = state.tabs.map Tab.id := by
  rw [reduce]
  split
  · rfl
  · exact map_patchTab Tab.id _ fun _ ↦ rfl

/-- The rename handler, on both stores. -/
def Stores.renamed (stores : Stores) (r : FsRename) : Stores where
  shell := stores.shell.tabs.foldl (followRename r.source r.target) stores.shell
  editor := reduce stores.editor (.rename r.source r.target)
  owner := stores.owner
  nodup := by
    rw [ids_rename]
    exact stores.nodup

/-- The tabs of the renamed files have their new paths, at the places where they were; every other
tab is as it was, the same tabs are active, and no buffer would be saved at an old path. -/
structure MovesExactly (r : FsRename) (before after : Stores) : Prop where
  shell_tabs : after.shell.tabs = before.shell.tabs.map r.moveTab
  shell_active : after.shell.activeTab = before.shell.activeTab.map r.moveTab
  editor_tabs : after.editor.tabs = before.editor.tabs.map (r.moveBuffer before.owner)
  editor_active : after.editor.activeId = before.editor.activeId
  left_behind : ∀ tab ∈ after.editor.tabs, ¬r.Holds before.owner tab

/-! ## Paths -/

section

variable {r : FsRename}

theorem newPath_source : r.newPath r.source = r.target := by
  rw [FsRename.newPath, List.drop_length, List.append_nil]

theorem source_ne_target : r.source ≠ r.target := fun h ↦ r.source_apart (Or.inl h)

/-- Of two paths at or above a third, one is at or above the other. -/
theorem atOrBelow_total {top other path : Path} (htop : AtOrBelow top path)
    (hother : AtOrBelow other path) : AtOrBelow top other ∨ AtOrBelow other top := by
  rcases htop with rfl | htop
  · exact Or.inr hother
  · rcases hother with rfl | hother
    · exact Or.inl (Or.inr htop)
    · rcases List.prefix_or_prefix_of_prefix htop hother with hle | hle
      · rcases List.prefix_concat_iff.mp hle with heq | hle
        · exact Or.inl (Or.inl (List.append_cancel_right heq).symm)
        · exact Or.inl (Or.inr hle)
      · rcases List.prefix_concat_iff.mp hle with heq | hle
        · exact Or.inr (Or.inl (List.append_cancel_right heq).symm)
        · exact Or.inr (Or.inr hle)

theorem atOrBelow_newPath {path : Path} (h : AtOrBelow r.source path) :
    AtOrBelow r.target (r.newPath path) := by
  rcases h with rfl | ⟨rest, rfl⟩
  · exact Or.inl newPath_source
  · refine Or.inr ⟨rest, ?_⟩
    rw [FsRename.newPath, List.append_assoc, List.append_assoc, List.drop_left]

/-- What has moved is not at or below the source any more. -/
theorem not_atOrBelow_newPath {path : Path} (h : AtOrBelow r.source path) :
    ¬AtOrBelow r.source (r.newPath path) := by
  intro hsource
  rcases atOrBelow_total hsource (atOrBelow_newPath h) with hbelow | hbelow
  · exact r.target_apart hbelow
  · exact r.source_apart hbelow

theorem newPath_ne {path : Path} (h : AtOrBelow r.source path) : r.newPath path ≠ path := by
  intro hsame
  exact not_atOrBelow_newPath h (hsame.symm ▸ h)

end

/-! ## The editor -/

/-- The first tab with the source as its path, and no other, is one of a renamed file. -/
def EditorFollows (r : FsRename) (stores : Stores) : Prop :=
  ∀ tab ∈ stores.editor.tabs,
    r.Holds stores.owner tab ↔ stores.editor.tabs.find? (·.path = r.source) = some tab

/-- A rename changes the path of the first tab with the old one. -/
theorem tabs_rename (state : State) (hids : (state.tabs.map Tab.id).Nodup)
    (source target : Path) :
    (reduce state (.rename source target)).tabs = state.tabs.map fun tab ↦
      if state.tabs.find? (·.path = source) = some tab then { tab with path := target }
      else tab := by
  rw [reduce]
  split
  · rename_i hnone
    simp only [hnone, reduceCtorEq, if_false, List.map_id']
  · rename_i found hfound
    obtain ⟨before, after, hsplit, hidx⟩ :=
      exists_split_of_mem hids (List.mem_of_find?_eq_some hfound)
    have hapart (tab : Tab) (htab : tab ∈ before ++ after) : found ≠ tab := by
      rintro rfl
      rw [hsplit, List.map_append, List.map_cons, List.nodup_middle, List.nodup_cons,
        ← List.map_append] at hids
      exact hids.1 (List.mem_map_of_mem htab)
    have hkept (tabs : List Tab) (hsub : ∀ tab ∈ tabs, tab ∈ before ++ after) :
        tabs.map (fun tab ↦ if found = tab then { tab with path := target } else tab) = tabs := by
      calc
        tabs.map (fun tab ↦ if found = tab then { tab with path := target } else tab) =
            tabs.map id := by
          apply List.map_congr_left
          intro tab htab
          exact if_neg (hapart tab (hsub tab htab))
        _ = tabs := List.map_id tabs
    rw [tabs_patchTab_of_split hsplit hidx]
    simp only [hfound, Option.some_inj]
    rw [hsplit, List.map_append, List.map_cons, if_pos rfl,
      hkept before fun tab htab ↦ List.mem_append_left _ htab,
      hkept after fun tab htab ↦ List.mem_append_right _ htab]

theorem activeId_rename (state : State) (source target : Path) :
    (reduce state (.rename source target)).activeId = state.activeId := by
  rw [reduce]
  split <;> rfl

theorem moveBuffer_eq_iff (r : FsRename) (owner : TabId → ProjectId) (tab : Tab) :
    r.moveBuffer owner tab = tab ↔ ¬r.Holds owner tab := by
  rw [FsRename.moveBuffer]
  split
  · rename_i hholds
    refine iff_of_false ?_ (not_not.mpr hholds)
    intro hsame
    exact newPath_ne hholds.2 (congrArg Tab.path hsame)
  · rename_i hother
    exact iff_of_true rfl hother

/-- No buffer that has moved is one of the source any more. -/
theorem not_holds_moveBuffer (r : FsRename) (owner : TabId → ProjectId) (tab : Tab) :
    ¬r.Holds owner (r.moveBuffer owner tab) := by
  rw [FsRename.moveBuffer]
  split
  · rename_i hholds
    intro hmoved
    exact not_atOrBelow_newPath hholds.2 hmoved.2
  · assumption

theorem editor_tabs_iff (r : FsRename) (stores : Stores) :
    (stores.renamed r).editor.tabs = stores.editor.tabs.map (r.moveBuffer stores.owner) ↔
      EditorFollows r stores := by
  rw [Stores.renamed, tabs_rename stores.editor stores.nodup, List.map_inj_left, EditorFollows]
  refine forall₂_congr fun tab _ ↦ ?_
  by_cases hfound : stores.editor.tabs.find? (·.path = r.source) = some tab
  · have hpath : tab.path = r.source := by
      simpa using List.find?_some hfound
    rw [if_pos hfound, iff_true_right hfound, FsRename.moveBuffer]
    split
    · rename_i hholds
      rw [hpath, newPath_source]
      exact iff_of_true rfl hholds
    · rename_i hother
      refine iff_of_false ?_ hother
      intro hsame
      exact source_ne_target (hpath.symm.trans (congrArg Tab.path hsame).symm)
  · rw [if_neg hfound, iff_false_right hfound, eq_comm, moveBuffer_eq_iff]

/-! ## The shell -/

/-- A file tab with the path, of any project. -/
def IsNamed (path : Path) : OpenTab → Prop
  | .file _ other => other = path
  | .commit _ _ _ _ | .diff _ _ _ _ => False

/-- No tab is one of a renamed file, nor does one of another project have the same path. Or the
last tab is the one of the renamed file, no other is, it is active, and the id that the file gets
is free. -/
def ShellFollows (r : FsRename) (stores : Stores) : Prop :=
  (∀ tab ∈ stores.shell.tabs, ¬IsNamed r.source tab ∧ ¬r.Touches tab) ∨
    ∃ others tab, tab = OpenTab.file r.projectId r.source ∧
      stores.shell.tabs = others ++ [tab] ∧ stores.shell.activeTab = some tab ∧
        (∀ other ∈ others, ¬IsNamed r.source other ∧ ¬r.Touches other) ∧
          (OpenTab.file r.projectId r.target).id ∉ others.map OpenTab.id

theorem moveTab_eq_iff (r : FsRename) (tab : OpenTab) : r.moveTab tab = tab ↔ ¬r.Touches tab := by
  cases tab with
  | file projectId path =>
    rw [FsRename.moveTab]
    split
    · rename_i htouches
      refine iff_of_false ?_ (not_not.mpr htouches)
      intro hsame
      exact newPath_ne htouches.2 (OpenTab.file.inj hsame).2
    · rename_i hother
      exact iff_of_true rfl hother
  | commit scope entityId sha title => exact iff_of_true rfl not_false
  | diff scope entityId path mode => exact iff_of_true rfl not_false

theorem moveTab_source (r : FsRename) :
    r.moveTab (.file r.projectId r.source) = .file r.projectId r.target := by
  rw [FsRename.moveTab, if_pos ⟨rfl, Or.inl rfl⟩, newPath_source]

theorem map_moveTab_eq_iff (r : FsRename) (tabs : List OpenTab) :
    tabs.map r.moveTab = tabs ↔ ∀ tab ∈ tabs, ¬r.Touches tab := by
  constructor
  · intro h tab htab
    have hsame := List.map_inj_left.mp (h.trans (List.map_id tabs).symm) tab htab
    exact (moveTab_eq_iff r tab).mp hsame
  · intro h
    calc
      tabs.map r.moveTab = tabs.map id :=
        List.map_congr_left fun tab htab ↦ (moveTab_eq_iff r tab).mpr (h tab htab)
      _ = tabs := List.map_id tabs

theorem activeId_openTab (state : StoreState) (tab : OpenTab) :
    (state.openTab tab).activeId = some tab.id := by
  rw [StoreState.openTab]
  split <;> rfl

/-- The tab of the old path is closed, one of the new path is opened and has the focus. -/
theorem followRename_file (source target : Path) (state : StoreState) (projectId : ProjectId) :
    followRename source target state (.file projectId source) =
      (state.closeTab (fileTabId projectId source)).openTab (.file projectId target) := by
  rw [followRename, if_pos rfl]
  dsimp only
  rw [activeId_openTab]
  split
  · rfl
  · exact if_neg (not_not.mpr rfl)

theorem followRename_of_not_named {source : Path} {tab : OpenTab} (h : ¬IsNamed source tab)
    (target : Path) (state : StoreState) : followRename source target state tab = state := by
  cases tab with
  | file projectId path => exact if_neg (show ¬path = source from h)
  | commit scope entityId sha title => rfl
  | diff scope entityId path mode => rfl

theorem foldl_followRename {source : Path} {tabs : List OpenTab}
    (h : ∀ tab ∈ tabs, ¬IsNamed source tab) (target : Path) (state : StoreState) :
    tabs.foldl (followRename source target) state = state := by
  induction tabs with
  | nil => rfl
  | cons tab tabs ih =>
    obtain ⟨htab, htabs⟩ := List.forall_mem_cons.mp h
    rw [List.foldl_cons, followRename_of_not_named htab, ih htabs]

theorem tabs_closeTab {state : StoreState} {before after : List OpenTab} {tab : OpenTab}
    (hsplit : state.tabs = before ++ tab :: after) :
    (state.closeTab tab.id).tabs = before ++ after := by
  have hmem : tab.id ∈ state.tabs.map OpenTab.id := by
    rw [hsplit]
    exact List.mem_map_of_mem (List.mem_append_right _ List.mem_cons_self)
  have hapart (other : OpenTab) (hother : other ∈ before) : ¬decide (other.id = tab.id) = true := by
    have hids := state.nodup
    rw [hsplit, List.map_append, List.map_cons, List.nodup_append] at hids
    intro hsame
    exact hids.2.2 other.id (List.mem_map_of_mem hother) tab.id List.mem_cons_self
      (of_decide_eq_true hsame)
  rw [StoreState.closeTab, if_pos hmem]
  dsimp only
  rw [hsplit, List.eraseP_append_right _ hapart, List.eraseP_cons_of_pos (by simp)]

theorem mem_closeTab {state : StoreState} {id : List Char} {tab : OpenTab}
    (h : tab ∈ (state.closeTab id).tabs) : tab ∈ state.tabs ∧ tab.id ≠ id := by
  by_cases hid : id ∈ state.tabs.map OpenTab.id
  · obtain ⟨closed, hclosed, rfl⟩ := List.mem_map.mp hid
    obtain ⟨before, after, hsplit⟩ := List.append_of_mem hclosed
    rw [tabs_closeTab hsplit] at h
    have hids := state.nodup
    rw [hsplit, List.map_append, List.map_cons, List.nodup_middle, List.nodup_cons,
      ← List.map_append] at hids
    rw [hsplit]
    refine ⟨((List.sublist_cons_self closed after).append_left before).subset h, ?_⟩
    intro hsame
    exact hids.1 (hsame ▸ List.mem_map_of_mem h)
  · rw [StoreState.closeTab, if_neg hid] at h
    exact ⟨h, fun hsame ↦ hid (hsame ▸ List.mem_map_of_mem h)⟩

theorem tabs_openTab (state : StoreState) (tab : OpenTab) :
    (state.openTab tab).tabs =
      if tab.id ∈ state.tabs.map OpenTab.id then state.tabs else state.tabs ++ [tab] := by
  rw [StoreState.openTab]
  split <;> rfl

theorem mem_of_activeTab {state : StoreState} {tab : OpenTab} (h : state.activeTab = some tab) :
    tab ∈ state.tabs := by
  obtain ⟨id, -, hfind⟩ := Option.bind_eq_some_iff.mp h
  exact List.mem_of_find?_eq_some hfind

/-- A tab whose id is new is opened at the end, and has the focus. -/
theorem activeTab_openTab {state : StoreState} {tab : OpenTab}
    (h : tab.id ∉ state.tabs.map OpenTab.id) : (state.openTab tab).activeTab = some tab := by
  have hnone : state.tabs.find? (fun other ↦ decide (other.id = tab.id)) = none := by
    apply List.find?_eq_none.mpr
    intro other hother hsame
    exact h (of_decide_eq_true hsame ▸ List.mem_map_of_mem hother)
  rw [StoreState.activeTab, activeId_openTab, Option.bind_some, tabs_openTab, if_neg h,
    List.find?_append, hnone, Option.none_or, List.find?_singleton, decide_eq_true rfl]
  rfl

/-- When every tab has had its turn, no tab with the old path is left. -/
theorem not_named_foldl {source target : Path} (hpaths : source ≠ target) (tabs : List OpenTab)
    (state : StoreState) (h : ∀ tab ∈ state.tabs, IsNamed source tab → tab ∈ tabs) :
    ∀ tab ∈ (tabs.foldl (followRename source target) state).tabs, ¬IsNamed source tab := by
  induction tabs generalizing state with
  | nil =>
    intro tab htab hnamed
    exact List.not_mem_nil (h tab htab hnamed)
  | cons first tabs ih =>
    apply ih
    intro tab htab hnamed
    have hkept : tab ∈ state.tabs ∧ tab ≠ first := by
      by_cases hfirst : IsNamed source first
      · cases first with
        | commit scope entityId sha title => exact hfirst.elim
        | diff scope entityId path mode => exact hfirst.elim
        | file projectId path =>
          cases hfirst
          rw [followRename_file, tabs_openTab] at htab
          have hclosed : tab ∈ (state.closeTab (fileTabId projectId source)).tabs := by
            split at htab
            · exact htab
            · rcases List.mem_append.mp htab with hmem | hnew
              · exact hmem
              · rw [List.mem_singleton.mp hnew] at hnamed
                exact absurd hnamed.symm hpaths
          obtain ⟨hmem, hid⟩ := mem_closeTab hclosed
          refine ⟨hmem, ?_⟩
          rintro rfl
          exact hid rfl
      · rw [followRename_of_not_named hfirst] at htab
        refine ⟨htab, ?_⟩
        rintro rfl
        exact hfirst hnamed
    exact (List.mem_cons.mp (h tab hkept.1 hnamed)).resolve_left hkept.2

/-- With one tab of the old path, the handler closes it and opens one of the new path. -/
theorem shell_renamed_of_split {stores : Stores} {r : FsRename} {before after : List OpenTab}
    {projectId : ProjectId}
    (hsplit : stores.shell.tabs = before ++ .file projectId r.source :: after)
    (hothers : ∀ tab ∈ before ++ after, ¬IsNamed r.source tab) :
    (stores.renamed r).shell =
      (stores.shell.closeTab (OpenTab.file projectId r.source).id).openTab
        (.file projectId r.target) := by
  rw [Stores.renamed]
  dsimp only
  rw [hsplit, List.foldl_append,
    foldl_followRename fun tab htab ↦ hothers tab (List.mem_append_left _ htab), List.foldl_cons,
    followRename_file,
    foldl_followRename fun tab htab ↦ hothers tab (List.mem_append_right _ htab)]
  rfl

theorem shell_renamed_of_not_named {stores : Stores} {r : FsRename}
    (h : ∀ tab ∈ stores.shell.tabs, ¬IsNamed r.source tab) :
    (stores.renamed r).shell = stores.shell := foldl_followRename h r.target stores.shell

theorem shellFollows_of_moved {r : FsRename} {stores : Stores}
    (htabs : (stores.renamed r).shell.tabs = stores.shell.tabs.map r.moveTab)
    (hactive : (stores.renamed r).shell.activeTab = stores.shell.activeTab.map r.moveTab) :
    ShellFollows r stores := by
  by_cases hnone : ∀ tab ∈ stores.shell.tabs, ¬IsNamed r.source tab
  · rw [shell_renamed_of_not_named hnone, eq_comm, map_moveTab_eq_iff] at htabs
    exact Or.inl fun tab htab ↦ ⟨hnone tab htab, htabs tab htab⟩
  · have hnamed (tab : OpenTab) (htab : tab ∈ stores.shell.tabs) (hnamed : IsNamed r.source tab) :
        tab = .file r.projectId r.source := by
      have htouches : r.Touches tab := by
        by_contra hother
        have hafter : tab ∈ (stores.renamed r).shell.tabs := by
          rw [htabs, ← (moveTab_eq_iff r tab).mpr hother]
          exact List.mem_map_of_mem htab
        exact not_named_foldl source_ne_target _ _ (fun _ hmem _ ↦ hmem) tab hafter hnamed
      cases tab with
      | commit scope entityId sha title => exact hnamed.elim
      | diff scope entityId path mode => exact hnamed.elim
      | file projectId path =>
        cases hnamed
        rw [htouches.1]
    push Not at hnone
    obtain ⟨tab, htab, hfirst⟩ := hnone
    obtain rfl := hnamed tab htab hfirst
    obtain ⟨before, after, hsplit⟩ := List.append_of_mem htab
    have hids := stores.shell.nodup
    rw [hsplit, List.map_append, List.map_cons, List.nodup_middle, List.nodup_cons,
      ← List.map_append] at hids
    have hothers (tab : OpenTab) (htab : tab ∈ before ++ after) : ¬IsNamed r.source tab := by
      intro hother
      have hmem : tab ∈ stores.shell.tabs := by
        rw [hsplit]
        exact ((List.sublist_cons_self _ after).append_left before).subset htab
      exact hids.1 (hnamed tab hmem hother ▸ List.mem_map_of_mem htab)
    have hclosed := tabs_closeTab hsplit
    rw [shell_renamed_of_split hsplit hothers] at htabs hactive
    rw [tabs_openTab, hclosed, hsplit, List.map_append (f := r.moveTab), List.map_cons,
      moveTab_source] at htabs
    split at htabs
    · have hlength := congrArg List.length htabs
      simp only [List.length_append, List.length_cons, List.length_map] at hlength
      omega
    · rename_i hfree
      rw [List.append_assoc] at htabs
      obtain ⟨hbefore, hafter⟩ := List.append_inj htabs (List.length_map _).symm
      have huntouched := (map_moveTab_eq_iff r before).mp hbefore.symm
      cases after with
      | cons next after =>
        rw [List.cons_append, List.cons_eq_cons] at hafter
        refine absurd ?_ hfree
        rw [← hafter.1]
        exact List.mem_map_of_mem (List.mem_append_right _ List.mem_cons_self)
      | nil =>
        rw [List.append_nil] at hfree hothers
        rw [activeTab_openTab (by rw [hclosed, List.append_nil]; exact hfree), eq_comm,
          Option.map_eq_some_iff] at hactive
        obtain ⟨active, hwas, hmoved⟩ := hactive
        have hmem := mem_of_activeTab hwas
        rw [hsplit, List.mem_append, List.mem_singleton] at hmem
        rcases hmem with hmem | rfl
        · rw [(moveTab_eq_iff r active).mpr (huntouched active hmem)] at hmoved
          exact absurd (hmoved ▸ List.mem_map_of_mem hmem) hfree
        · exact Or.inr ⟨before, _, rfl, hsplit, hwas,
            fun tab htab ↦ ⟨hothers tab htab, huntouched tab htab⟩, hfree⟩

theorem moved_of_shellFollows {r : FsRename} {stores : Stores} (h : ShellFollows r stores) :
    (stores.renamed r).shell.tabs = stores.shell.tabs.map r.moveTab ∧
      (stores.renamed r).shell.activeTab = stores.shell.activeTab.map r.moveTab := by
  rcases h with hnone | ⟨others, tab, rfl, hsplit, hactive, hothers, hfree⟩
  · rw [shell_renamed_of_not_named fun tab htab ↦ (hnone tab htab).1]
    refine ⟨((map_moveTab_eq_iff r _).mpr fun tab htab ↦ (hnone tab htab).2).symm, ?_⟩
    cases hactive : stores.shell.activeTab with
    | none => rfl
    | some tab =>
      have huntouched := (hnone tab (mem_of_activeTab hactive)).2
      rw [Option.map_some, (moveTab_eq_iff r tab).mpr huntouched]
  · have hnamed (tab : OpenTab) (htab : tab ∈ others ++ []) : ¬IsNamed r.source tab := by
      rw [List.append_nil] at htab
      exact (hothers tab htab).1
    have hclosed := tabs_closeTab hsplit
    rw [List.append_nil] at hclosed
    rw [shell_renamed_of_split hsplit hnamed]
    constructor
    · rw [tabs_openTab, hclosed, if_neg hfree, hsplit, List.map_append, List.map_singleton,
        moveTab_source, (map_moveTab_eq_iff r others).mpr fun tab htab ↦ (hothers tab htab).2]
    · rw [hactive, Option.map_some, moveTab_source]
      apply activeTab_openTab
      rw [hclosed]
      exact hfree

/-! ## The two stores -/

theorem movesExactly_iff (r : FsRename) (stores : Stores) :
    MovesExactly r stores (stores.renamed r) ↔ ShellFollows r stores ∧ EditorFollows r stores := by
  constructor
  · intro h
    exact ⟨shellFollows_of_moved h.shell_tabs h.shell_active,
      (editor_tabs_iff r stores).mp h.editor_tabs⟩
  · rintro ⟨hshell, heditor⟩
    have htabs := (editor_tabs_iff r stores).mpr heditor
    refine ⟨(moved_of_shellFollows hshell).1, (moved_of_shellFollows hshell).2, htabs,
      activeId_rename stores.editor r.source r.target, ?_⟩
    rw [htabs]
    intro tab htab
    obtain ⟨before, -, rfl⟩ := List.mem_map.mp htab
    exact not_holds_moveBuffer r stores.owner before

/-- Two files of one project are open, and the second is active. -/
def twoTabs : Stores where
  shell :=
    { tabs := [.file 1 ['a'], .file 1 ['b']]
      activeId := some (fileTabId 1 ['b'])
      banners := JsMap.empty
      nodup := by decide +kernel }
  editor := ⟨[{ id := 0, path := ['a'] }, { id := 1, path := ['b'] }], some 1⟩
  owner _ := 1
  nodup := by decide +kernel

/-- The first of them is renamed. -/
def renameFirst : FsRename where
  projectId := 1
  source := ['a']
  target := ['c']
  target_apart := by decide +kernel
  source_apart := by decide +kernel

/-- The tab of the renamed file goes to the end. -/
theorem not_movesExactly :
    ¬∀ (r : FsRename) (stores : Stores), MovesExactly r stores (stores.renamed r) := by
  intro h
  have htabs : (twoTabs.renamed renameFirst).shell.tabs =
      [OpenTab.file 1 ['b'], OpenTab.file 1 ['c']] := by
    decide +kernel
  have hmoved : twoTabs.shell.tabs.map renameFirst.moveTab =
      [OpenTab.file 1 ['c'], OpenTab.file 1 ['b']] := by
    decide +kernel
  have hsame := (h renameFirst twoTabs).shell_tabs
  rw [htabs, hmoved] at hsame
  exact absurd hsame (by decide)

end Flockctl.EditorTabs.TabStore
