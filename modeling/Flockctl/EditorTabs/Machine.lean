import Mathlib.Data.List.Nodup

/-!
# The tabs of the editor

The editor keeps one tab for each open file. A tab has an id, the path of its file, the content of
its buffer at the last sync point with the sha it had there, and a flag that is set while the buffer
differs from that content. The reducer takes a state and an event to the next state.
-/

namespace Flockctl.EditorTabs

abbrev TabId := ℕ

abbrev Path := List Char

structure Tab where
  id : TabId
  path : Path
  buffer : List Char := []
  heldSha : List Char := []
  dirty : Bool := false
  pendingClose : Bool := false
  deriving DecidableEq, Repr

structure State where
  tabs : List Tab
  activeId : Option TabId
  deriving DecidableEq, Repr

inductive CloseChoice
  | save
  | dont
  | cancel
  deriving DecidableEq, Repr

inductive Event
  | open (path : Path) (newId : TabId)
  | close (id : TabId)
  | confirmClose (id : TabId) (choice : CloseChoice)
  | focus (id : TabId)
  | setDirty (id : TabId) (dirty : Bool)
  | setBuffer (id : TabId) (content sha : List Char)
  | rename (source target : Path)
  deriving DecidableEq, Repr

def initialState : State := ⟨[], none⟩

def findTab (state : State) (id : TabId) : Option Tab := state.tabs.find? (·.id = id)

def patchTab (state : State) (id : TabId) (patch : Tab → Tab) : State :=
  { state with tabs := state.tabs.modify (state.tabs.findIdx (·.id = id)) patch }

/-- When the removed tab was active, its right neighbour is focused, or else its left one. -/
def removeTab (state : State) (id : TabId) : State :=
  let idx := state.tabs.findIdx (·.id = id)
  if idx < state.tabs.length then
    let tabs := state.tabs.eraseIdx idx
    { tabs
      activeId :=
        if state.activeId = some id then (tabs[idx]?.or tabs[idx - 1]?).map Tab.id
        else state.activeId }
  else state

def reduce (state : State) : Event → State
  | .open path newId =>
    match state.tabs.find? (·.path = path) with
    | some existing => { state with activeId := some existing.id }
    | none => { tabs := state.tabs ++ [{ id := newId, path }], activeId := some newId }
  | .close id =>
    match findTab state id with
    | none => state
    | some tab =>
      if tab.pendingClose then state
      else if tab.dirty then patchTab state id fun tab ↦ { tab with pendingClose := true }
      else removeTab state id
  | .confirmClose id choice =>
    match findTab state id with
    | none => state
    | some tab =>
      if choice = .cancel then
        if tab.pendingClose then patchTab state id fun tab ↦ { tab with pendingClose := false }
        else state
      else removeTab state id
  | .focus id =>
    match findTab state id with
    | none => state
    | some _ => { state with activeId := some id }
  | .setDirty id dirty =>
    match findTab state id with
    | none => state
    | some tab =>
      if tab.dirty = dirty then state else patchTab state id fun tab ↦ { tab with dirty := dirty }
  | .setBuffer id content sha =>
    match findTab state id with
    | none => state
    | some _ =>
      patchTab state id fun tab ↦ { tab with buffer := content, heldSha := sha, dirty := false }
  | .rename source target =>
    match state.tabs.find? (·.path = source) with
    | none => state
    | some tab => patchTab state tab.id fun tab ↦ { tab with path := target }

/-! ## One tab for each file -/

/-- The ids are pairwise distinct, as are the paths, and a tab is active as soon as there is one. -/
structure OneTabPerFile (state : State) : Prop where
  ids : (state.tabs.map Tab.id).Nodup
  paths : (state.tabs.map Tab.path).Nodup
  none_active : state.activeId = none ↔ state.tabs = []
  active_open : ∀ id, state.activeId = some id → id ∈ state.tabs.map Tab.id

/-- An opened tab gets an id no other tab has. -/
def OpensFresh (state : State) : Event → Prop
  | .open _ newId => newId ∉ state.tabs.map Tab.id
  | _ => True

/-- A renamed tab does not get the path of another one. -/
def RenamesApart (state : State) : Event → Prop
  | .rename source target =>
    source ∈ state.tabs.map Tab.path → target ≠ source → target ∉ state.tabs.map Tab.path
  | _ => True

section

variable {state : State}

theorem oneTabPerFile_initialState : OneTabPerFile initialState where
  ids := List.nodup_nil
  paths := List.nodup_nil
  none_active := by simp [initialState]
  active_open := by simp [initialState]

theorem find_id_eq {id : TabId} {tab : Tab} (hfind : findTab state id = some tab) :
    tab.id = id := by
  simpa using List.find?_some hfind

/-- What a patch leaves as it is, the tabs of the patched state have as before. -/
theorem map_patchTab {β : Type} (read : Tab → β) (id : TabId) {patch : Tab → Tab}
    (hpatch : ∀ tab, read (patch tab) = read tab) :
    (patchTab state id patch).tabs.map read = state.tabs.map read := by
  simp only [patchTab]
  generalize state.tabs.findIdx (·.id = id) = idx
  induction state.tabs generalizing idx with
  | nil => cases idx <;> rfl
  | cons tab tabs ih =>
    cases idx with
    | zero => simp [List.modify, hpatch]
    | succ idx => simp [ih]

/-- A patch that keeps id and path keeps the tabs apart. -/
theorem oneTabPerFile_patchTab (hstate : OneTabPerFile state) (id : TabId) {patch : Tab → Tab}
    (hid : ∀ tab, (patch tab).id = tab.id) (hpath : ∀ tab, (patch tab).path = tab.path) :
    OneTabPerFile (patchTab state id patch) where
  ids := by
    rw [map_patchTab Tab.id id hid]
    exact hstate.ids
  paths := by
    rw [map_patchTab Tab.path id hpath]
    exact hstate.paths
  none_active := by
    rw [← List.map_eq_nil_iff (f := Tab.id), map_patchTab Tab.id id hid, List.map_eq_nil_iff]
    exact hstate.none_active
  active_open := by
    rw [map_patchTab Tab.id id hid]
    exact hstate.active_open

theorem findIdx_split {p : Tab → Bool} {before after : List Tab} {tab : Tab}
    (hbefore : ∀ other ∈ before, p other = false) (htab : p tab = true) :
    (before ++ tab :: after).findIdx p = before.length := by
  induction before with
  | nil => simp [List.findIdx_cons, htab]
  | cons other before ih =>
    obtain ⟨hother, hbefore⟩ := List.forall_mem_cons.mp hbefore
    simp [List.findIdx_cons, hother, ih hbefore]

/-- Where ids are distinct, a tab is found between two parts of the others. -/
theorem exists_split_of_mem (hids : (state.tabs.map Tab.id).Nodup) {tab : Tab}
    (htab : tab ∈ state.tabs) : ∃ before after, state.tabs = before ++ tab :: after ∧
      state.tabs.findIdx (fun other ↦ decide (other.id = tab.id)) = before.length := by
  obtain ⟨before, after, hsplit⟩ := List.append_of_mem htab
  refine ⟨before, after, hsplit, ?_⟩
  rw [hsplit] at hids ⊢
  refine findIdx_split (fun other hother ↦ ?_) (decide_eq_true rfl)
  rw [List.map_append, List.map_cons, List.nodup_append] at hids
  have hne := hids.2.2 other.id (List.mem_map_of_mem hother) tab.id List.mem_cons_self
  exact decide_eq_false hne

theorem tabs_patchTab_of_split {before after : List Tab} {tab : Tab} {patch : Tab → Tab}
    (hsplit : state.tabs = before ++ tab :: after)
    (hidx : state.tabs.findIdx (fun other ↦ decide (other.id = tab.id)) = before.length) :
    (patchTab state tab.id patch).tabs = before ++ patch tab :: after := by
  simp only [patchTab, hidx]
  rw [hsplit]
  clear hsplit hidx
  induction before with
  | nil => rfl
  | cons other before ih => simp [ih]

/-- Removing a tab leaves the others, and focuses a neighbour where the tab was active. -/
theorem removeTab_of_split {before after : List Tab} {tab : Tab}
    (hsplit : state.tabs = before ++ tab :: after)
    (hidx : state.tabs.findIdx (fun other ↦ decide (other.id = tab.id)) = before.length) :
    removeTab state tab.id =
      { tabs := before ++ after
        activeId :=
          if state.activeId = some tab.id then (after.head?.or before.getLast?).map Tab.id
          else state.activeId } := by
  have hlt : before.length < state.tabs.length := by simp [hsplit]
  have herase : state.tabs.eraseIdx before.length = before ++ after := by
    rw [hsplit, List.eraseIdx_append_of_length_le (Nat.le_refl _)]
    simp
  have hright : (before ++ after)[before.length]? = after.head? := by
    rw [List.getElem?_append_right (Nat.le_refl _), Nat.sub_self, List.head?_eq_getElem?]
  have hleft : after.head?.or (before ++ after)[before.length - 1]? =
      after.head?.or before.getLast? := by
    cases after with
    | nil => simp [List.getLast?_eq_getElem?]
    | cons other after => simp
  simp only [removeTab, hidx, if_pos hlt, herase, hright, hleft]

theorem oneTabPerFile_removeTab (hstate : OneTabPerFile state) {tab : Tab}
    (htab : tab ∈ state.tabs) : OneTabPerFile (removeTab state tab.id) := by
  obtain ⟨before, after, hsplit, hidx⟩ := exists_split_of_mem hstate.ids htab
  rw [removeTab_of_split hsplit hidx]
  have hsublist : (before ++ after).Sublist state.tabs := by
    rw [hsplit]
    exact List.Sublist.append_left (List.sublist_cons_self tab after) before
  refine ⟨hstate.ids.sublist (hsublist.map _), hstate.paths.sublist (hsublist.map _), ?_, ?_⟩
  · by_cases hactive : state.activeId = some tab.id
    · simp [hactive, and_comm]
    · have hsome : state.activeId ≠ none := by
        rw [Ne, hstate.none_active, hsplit]
        simp
      obtain ⟨id, hid⟩ := Option.ne_none_iff_exists'.mp hsome
      have hopen := hstate.active_open id hid
      have hne : id ≠ tab.id := fun heq ↦ hactive (heq ▸ hid)
      rw [hsplit] at hopen
      have hrest : id ∈ (before ++ after).map Tab.id := by
        simp only [List.map_append, List.map_cons, List.mem_append, List.mem_cons] at hopen ⊢
        tauto
      have hnonempty : before ++ after ≠ [] := by
        intro hnil
        simp [hnil] at hrest
      simp only [if_neg hactive]
      exact iff_of_false hsome hnonempty
  · intro id hid
    dsimp only at hid
    split at hid
    · obtain ⟨other, hother, rfl⟩ := Option.map_eq_some_iff.mp hid
      refine List.mem_map_of_mem (List.mem_append.mpr ?_)
      cases after with
      | nil => exact Or.inl (List.mem_of_getLast? (by simpa using hother))
      | cons next after =>
        cases hother
        exact Or.inr List.mem_cons_self
    · rename_i hactive
      have hopen := hstate.active_open id hid
      have hne : id ≠ tab.id := fun heq ↦ hactive (heq ▸ hid)
      rw [hsplit] at hopen
      simp only [List.map_append, List.map_cons, List.mem_append, List.mem_cons] at hopen ⊢
      tauto

/-- A rename keeps the tabs apart exactly when no other tab has the new path. -/
theorem oneTabPerFile_rename_iff (hstate : OneTabPerFile state) (source target : Path) :
    OneTabPerFile (reduce state (.rename source target)) ↔
      RenamesApart state (.rename source target) := by
  simp only [reduce, RenamesApart]
  cases hfind : state.tabs.find? (·.path = source) with
  | none =>
    refine iff_of_true hstate fun hsource ↦ ?_
    obtain ⟨tab, htab, hpath⟩ := List.mem_map.mp hsource
    exact absurd (decide_eq_true hpath) (List.find?_eq_none.mp hfind tab htab)
  | some tab =>
    have htab : tab ∈ state.tabs := List.mem_of_find?_eq_some hfind
    have hpath : tab.path = source := by simpa using List.find?_some hfind
    obtain ⟨before, after, hsplit, hidx⟩ := exists_split_of_mem hstate.ids htab
    have hpatched : (patchTab state tab.id fun tab ↦ { tab with path := target }).tabs =
        before ++ { tab with path := target } :: after := tabs_patchTab_of_split hsplit hidx
    have hpaths := hstate.paths
    rw [hsplit, List.map_append, List.map_cons, hpath, List.nodup_middle,
      List.nodup_cons] at hpaths
    have hsource : source ∈ state.tabs.map Tab.path := hpath ▸ List.mem_map_of_mem htab
    have hmem (path : Path) : path ∈ state.tabs.map Tab.path ↔
        path = source ∨ path ∈ before.map Tab.path ++ after.map Tab.path := by
      rw [hsplit, List.map_append, List.map_cons, hpath, List.mem_append, List.mem_cons,
        List.mem_append]
      tauto
    constructor
    · intro hrenamed _ hne
      have hnodup := hrenamed.paths
      rw [hpatched, List.map_append, List.map_cons, List.nodup_middle, List.nodup_cons] at hnodup
      rw [hmem, not_or]
      exact ⟨hne, hnodup.1⟩
    · intro hapart
      have hids : (patchTab state tab.id fun tab ↦ { tab with path := target }).tabs.map Tab.id =
          state.tabs.map Tab.id := map_patchTab Tab.id tab.id fun _ ↦ rfl
      refine ⟨hids ▸ hstate.ids, ?_, ?_, ?_⟩
      · rw [hpatched, List.map_append, List.map_cons, List.nodup_middle, List.nodup_cons]
        refine ⟨?_, hpaths.2⟩
        by_cases heq : target = source
        · exact heq ▸ hpaths.1
        · exact fun hin ↦ hapart hsource heq ((hmem target).mpr (Or.inr hin))
      · rw [← List.map_eq_nil_iff (f := Tab.id), hids, List.map_eq_nil_iff]
        exact hstate.none_active
      · rw [hids]
        exact hstate.active_open

/-- An event keeps the tabs apart exactly when it renames no tab to the path of another one. -/
theorem oneTabPerFile_reduce_iff (hstate : OneTabPerFile state) {event : Event}
    (hfresh : OpensFresh state event) :
    OneTabPerFile (reduce state event) ↔ RenamesApart state event := by
  cases event with
  | «open» path newId =>
    refine iff_of_true ?_ trivial
    simp only [reduce]
    cases hfind : state.tabs.find? (·.path = path) with
    | some existing =>
      have htab := List.mem_of_find?_eq_some hfind
      refine ⟨hstate.ids, hstate.paths, ?_, ?_⟩
      · exact iff_of_false (Option.some_ne_none _) (List.ne_nil_of_mem htab)
      · rintro id hid
        cases hid
        exact List.mem_map_of_mem htab
    | none =>
      have hnew : path ∉ state.tabs.map Tab.path := by
        intro hin
        obtain ⟨tab, htab, hpath⟩ := List.mem_map.mp hin
        exact absurd (decide_eq_true hpath) (List.find?_eq_none.mp hfind tab htab)
      refine ⟨?_, ?_, ?_, ?_⟩
      · rw [List.map_append, List.nodup_append]
        refine ⟨hstate.ids, List.nodup_singleton _, ?_⟩
        intro id hid other hother heq
        have hnewId : id = newId := heq.trans (List.mem_singleton.mp hother)
        exact hfresh (hnewId ▸ hid)
      · rw [List.map_append, List.nodup_append]
        refine ⟨hstate.paths, List.nodup_singleton _, ?_⟩
        intro other hother last hlast heq
        have hpath : other = path := heq.trans (List.mem_singleton.mp hlast)
        exact hnew (hpath ▸ hother)
      · simp
      · rintro id hid
        cases hid
        simp
  | close id =>
    refine iff_of_true ?_ trivial
    simp only [reduce]
    cases hfind : findTab state id with
    | none => exact hstate
    | some tab =>
      dsimp only
      split
      · exact hstate
      · split
        · exact oneTabPerFile_patchTab hstate id (fun _ ↦ rfl) fun _ ↦ rfl
        · rw [← find_id_eq hfind]
          exact oneTabPerFile_removeTab hstate (List.mem_of_find?_eq_some hfind)
  | confirmClose id choice =>
    refine iff_of_true ?_ trivial
    simp only [reduce]
    cases hfind : findTab state id with
    | none => exact hstate
    | some tab =>
      dsimp only
      split
      · split
        · exact oneTabPerFile_patchTab hstate id (fun _ ↦ rfl) fun _ ↦ rfl
        · exact hstate
      · rw [← find_id_eq hfind]
        exact oneTabPerFile_removeTab hstate (List.mem_of_find?_eq_some hfind)
  | focus id =>
    refine iff_of_true ?_ trivial
    simp only [reduce]
    cases hfind : findTab state id with
    | none => exact hstate
    | some tab =>
      have htab := List.mem_of_find?_eq_some hfind
      refine ⟨hstate.ids, hstate.paths, ?_, ?_⟩
      · exact iff_of_false (Option.some_ne_none _) (List.ne_nil_of_mem htab)
      · rintro other hother
        cases hother
        exact find_id_eq hfind ▸ List.mem_map_of_mem htab
  | setDirty id dirty =>
    refine iff_of_true ?_ trivial
    simp only [reduce]
    cases findTab state id with
    | none => exact hstate
    | some tab =>
      dsimp only
      split
      · exact hstate
      · exact oneTabPerFile_patchTab hstate id (fun _ ↦ rfl) fun _ ↦ rfl
  | setBuffer id content sha =>
    refine iff_of_true ?_ trivial
    simp only [reduce]
    cases findTab state id with
    | none => exact hstate
    | some tab => exact oneTabPerFile_patchTab hstate id (fun _ ↦ rfl) fun _ ↦ rfl
  | rename source target => exact oneTabPerFile_rename_iff hstate source target

/-- The tab is removed by what the user chose in the dialog. -/
def IsDiscarded (id : TabId) (event : Event) : Prop :=
  ∃ choice, choice ≠ .cancel ∧ event = .confirmClose id choice

/-- Removing a tab leaves every tab with another id. -/
theorem mem_removeTab (hstate : OneTabPerFile state) {tab : Tab} (htab : tab ∈ state.tabs)
    {id : TabId} (hid : id ∈ state.tabs.map Tab.id) (hne : id ≠ tab.id) :
    id ∈ (removeTab state tab.id).tabs.map Tab.id := by
  obtain ⟨before, after, hsplit, hidx⟩ := exists_split_of_mem hstate.ids htab
  rw [removeTab_of_split hsplit hidx]
  rw [hsplit] at hid
  simp only [List.map_append, List.map_cons, List.mem_append, List.mem_cons] at hid ⊢
  tauto

/-- A tab is found under its id. -/
theorem findTab_of_mem (hstate : OneTabPerFile state) {tab : Tab} (htab : tab ∈ state.tabs) :
    findTab state tab.id = some tab := by
  cases hfind : findTab state tab.id with
  | none => exact absurd (decide_eq_true rfl) (List.find?_eq_none.mp hfind tab htab)
  | some found =>
    have hfound := List.mem_of_find?_eq_some hfind
    rw [List.inj_on_of_nodup_map hstate.ids hfound htab (find_id_eq hfind)]

/-- A dirty tab stays until the user gives it up. -/
theorem mem_reduce_of_dirty (hstate : OneTabPerFile state) {tab : Tab} (htab : tab ∈ state.tabs)
    (hdirty : tab.dirty = true) (event : Event) :
    tab.id ∈ (reduce state event).tabs.map Tab.id ∨ IsDiscarded tab.id event := by
  have hid : tab.id ∈ state.tabs.map Tab.id := List.mem_map_of_mem htab
  have hpatched (id : TabId) {patch : Tab → Tab} (hpatch : ∀ tab, (patch tab).id = tab.id) :
      tab.id ∈ (patchTab state id patch).tabs.map Tab.id := by
    rw [map_patchTab Tab.id id hpatch]
    exact hid
  cases event with
  | «open» path newId =>
    left
    simp only [reduce]
    cases state.tabs.find? (·.path = path) with
    | some existing => exact hid
    | none => exact List.mem_map_of_mem (List.mem_append_left _ htab)
  | close id =>
    left
    simp only [reduce]
    cases hfind : findTab state id with
    | none => exact hid
    | some found =>
      dsimp only
      split
      · exact hid
      · split
        · exact hpatched id fun _ ↦ rfl
        · rename_i hclean
          have hne : tab.id ≠ found.id := by
            intro heq
            have hsame := findTab_of_mem hstate htab
            rw [heq, find_id_eq hfind, hfind] at hsame
            cases hsame
            exact hclean hdirty
          rw [← find_id_eq hfind]
          exact mem_removeTab hstate (List.mem_of_find?_eq_some hfind) hid hne
  | confirmClose id choice =>
    simp only [reduce]
    cases hfind : findTab state id with
    | none => exact Or.inl hid
    | some found =>
      dsimp only
      split
      · left
        split
        · exact hpatched id fun _ ↦ rfl
        · exact hid
      · rename_i hchoice
        by_cases heq : tab.id = id
        · exact Or.inr ⟨choice, hchoice, heq ▸ rfl⟩
        · left
          have hfound := find_id_eq hfind
          rw [← hfound]
          exact mem_removeTab hstate (List.mem_of_find?_eq_some hfind) hid (hfound ▸ heq)
  | focus id =>
    left
    simp only [reduce]
    cases findTab state id <;> exact hid
  | setDirty id dirty =>
    left
    simp only [reduce]
    cases findTab state id with
    | none => exact hid
    | some found =>
      dsimp only
      split
      · exact hid
      · exact hpatched id fun _ ↦ rfl
  | setBuffer id content sha =>
    left
    simp only [reduce]
    cases findTab state id with
    | none => exact hid
    | some found => exact hpatched id fun _ ↦ rfl
  | rename source target =>
    left
    simp only [reduce]
    cases state.tabs.find? (·.path = source) with
    | none => exact hid
    | some found => exact hpatched found.id fun _ ↦ rfl

end

end Flockctl.EditorTabs
