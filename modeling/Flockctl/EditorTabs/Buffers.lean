import Flockctl.EditorTabs.Drift

/-!
# No unsaved buffer is lost

Every event keeps the tabs apart and the dirty tabs open, and no drift check replaces a buffer but a
clean one by the content of its own file, exactly as long as no rename gives a tab the path of
another one, and every answer that replaces a buffer is the content of the file that lies at the
path of the tab in the project of the tab.
-/

namespace Flockctl.EditorTabs

open Collections Transition

namespace Workbench

variable (shaOf : List Char → List Char) (s : Workbench)

/-- A dirty tab stays open, unless the event is what the user chose in its dialog. -/
def KeepsDirty (event : WorkbenchEvent) : Prop :=
  ∀ tab ∈ s.editor.tabs, tab.dirty = true →
    tab.id ∈ (s.step shaOf event).editor.tabs.map Tab.id ∨
      ∃ projectId choice, choice ≠ .cancel ∧ event = .editor projectId (.confirmClose tab.id choice)

/-- The task has read this content from the file at the path of the tab in the tab's project. -/
def HasReadOwnFile (walk task : ℕ) (tab : Tab) (content : List Char) : Prop :=
  ∃ shellTab sha, s.taskAt walk task = some ⟨shellTab, some (.full content sha
    (s.disk.fileAt (s.owner tab.id) tab.path))⟩

/-- A tab that something else than an event of the editor changes is clean, and its buffer becomes
the content of its own file that a drift check has read. -/
def ReplacesByOwn (event : WorkbenchEvent) : Prop :=
  (∃ projectId editorEvent, event = .editor projectId editorEvent) ∨
    ∀ tab ∈ s.editor.tabs, ∀ after ∈ (s.step shaOf event).editor.tabs, after.id = tab.id →
      after ≠ tab → tab.dirty = false ∧
        ∃ walk task, event = .settle walk task ∧ s.HasReadOwnFile walk task tab after.buffer

/-- What is promised of an event. -/
structure KeepsBuffers (event : WorkbenchEvent) : Prop where
  apart : OneTabPerFile (s.step shaOf event).editor
  dirty : s.KeepsDirty shaOf event
  own : s.ReplacesByOwn shaOf event

/-- If the answer of the task replaces the buffer of a clean tab, then the file that was read is the
one at the path of the tab in the tab's project. -/
def SettlesOwn (walk task : ℕ) : Prop :=
  ∀ projectId path content sha key tab,
    s.taskAt walk task = some ⟨.file projectId path, some (.full content sha key)⟩ →
    s.lookupEditorState path = some tab → tab.dirty = false → sha ≠ tab.heldSha →
    key = s.disk.fileAt (s.owner tab.id) tab.path

/-- No rename gives a tab the path of another one, and no answer goes to a tab of another file. -/
def IsHarmless : WorkbenchEvent → Prop
  | .editor _ event => RenamesApart s.editor event
  | .settle walk task => s.SettlesOwn walk task
  | _ => True

variable {shaOf s}

theorem editor_closeTab (tab : ShellTab) : (s.closeTab tab).editor = s.editor := by
  unfold closeTab
  split <;> rfl

theorem editor_openTab (tab : ShellTab) : (s.openTab tab).editor = s.editor := by
  unfold openTab
  split <;> rfl

theorem editor_setBanner (tab : ShellTab) (banner : ReconnectBannerState) :
    (s.setBanner tab banner).editor = s.editor := by
  unfold setBanner
  split <;> rfl

theorem editor_dispatch (projectId : ProjectId) (event : Event) :
    (s.dispatch projectId event).editor =
      if OpensFresh s.editor event then reduce s.editor event else s.editor := by
  unfold dispatch
  split <;> rfl

/-- An answer changes the editor only where it replaces the buffer of the tab it finds. -/
theorem editor_settle (walk task : ℕ) :
    (s.settle walk task).editor = s.editor ∨
      ∃ projectId path content sha key tab,
        s.taskAt walk task = some ⟨.file projectId path, some (.full content sha key)⟩ ∧
        s.lookupEditorState path = some tab ∧ tab.dirty = false ∧ sha ≠ tab.heldSha ∧
        (s.settle walk task).editor = reduce s.editor (.setBuffer tab.id content sha) := by
  unfold settle
  cases htask : s.taskAt walk task with
  | none => exact Or.inl rfl
  | some found =>
    obtain ⟨tab, response⟩ := found
    cases tab with
    | other id =>
      cases response with
      | none => exact Or.inl rfl
      | some fresh =>
        left
        cases fresh <;> rfl
    | file projectId path =>
      cases response with
      | none => exact Or.inl rfl
      | some fresh =>
        cases fresh with
        | notFound => exact Or.inl (editor_setBanner _ _)
        | partly => exact Or.inl rfl
        | failed => exact Or.inl rfl
        | threw => exact Or.inl rfl
        | full content sha key =>
          simp only [Option.elim, applyDriftResult]
          cases hfind : s.lookupEditorState path with
          | none => exact Or.inl rfl
          | some ed =>
            dsimp only
            by_cases hsha : sha = ed.heldSha
            · rw [if_pos hsha]
              exact Or.inl rfl
            · rw [if_neg hsha]
              by_cases hclean : ed.dirty = false
              · rw [if_pos hclean]
                exact Or.inr ⟨projectId, path, content, sha, key, ed, rfl, hfind, hclean, hsha, rfl⟩
              · rw [if_neg hclean]
                exact Or.inl (editor_setBanner _ _)

/-- Replacing the buffer of one tab changes no other tab. -/
theorem eq_of_mem_setBuffer {state : State} (hstate : OneTabPerFile state) {ed : Tab}
    (hed : ed ∈ state.tabs) {content sha : List Char} {tab after : Tab} (htab : tab ∈ state.tabs)
    (hafter : after ∈ (reduce state (.setBuffer ed.id content sha)).tabs)
    (hid : after.id = tab.id) (hne : after ≠ tab) :
    tab = ed ∧ after = { ed with buffer := content, heldSha := sha, dirty := false } := by
  obtain ⟨left, right, hsplit, hidx⟩ := exists_split_of_mem hstate.ids hed
  simp only [reduce, findTab_of_mem hstate hed] at hafter
  rw [tabs_patchTab_of_split hsplit hidx, List.mem_append, List.mem_cons] at hafter
  have hold : after ∈ left ∨ after ∈ right → after ∈ state.tabs := by
    intro hin
    rw [hsplit, List.mem_append, List.mem_cons]
    tauto
  have hchanged : after = { ed with buffer := content, heldSha := sha, dirty := false } := by
    by_contra hother
    have hkept : after ∈ state.tabs := by tauto
    exact hne (List.inj_on_of_nodup_map hstate.ids hkept htab hid)
  refine ⟨List.inj_on_of_nodup_map hstate.ids htab hed ?_, hchanged⟩
  rw [← hid, hchanged]

theorem mem_setBuffer {state : State} (hstate : OneTabPerFile state) {ed : Tab}
    (hed : ed ∈ state.tabs) (content sha : List Char) :
    { ed with buffer := content, heldSha := sha, dirty := false } ∈
      (reduce state (.setBuffer ed.id content sha)).tabs := by
  obtain ⟨left, right, hsplit, hidx⟩ := exists_split_of_mem hstate.ids hed
  simp only [reduce, findTab_of_mem hstate hed]
  rw [tabs_patchTab_of_split hsplit hidx]
  exact List.mem_append_right _ List.mem_cons_self

/-- An event that leaves the editor as it is keeps every buffer. -/
theorem keepsBuffers_of_editor_eq (hstate : OneTabPerFile s.editor) {event : WorkbenchEvent}
    (heditor : (s.step shaOf event).editor = s.editor) : s.KeepsBuffers shaOf event where
  apart := heditor ▸ hstate
  dirty := by
    intro tab htab _
    rw [heditor]
    exact Or.inl (List.mem_map_of_mem htab)
  own := by
    refine Or.inr fun tab htab after hafter hid hne ↦ ?_
    rw [heditor] at hafter
    exact absurd (List.inj_on_of_nodup_map hstate.ids hafter htab hid) hne

/-- An event of the editor keeps every buffer exactly when it gives no tab the path of another. -/
theorem keepsBuffers_editor_iff (hstate : OneTabPerFile s.editor) (projectId : ProjectId)
    (event : Event) :
    s.KeepsBuffers shaOf (.editor projectId event) ↔ RenamesApart s.editor event := by
  have heditor : (s.step shaOf (.editor projectId event)).editor =
      if OpensFresh s.editor event then reduce s.editor event else s.editor :=
    editor_dispatch projectId event
  by_cases hfresh : OpensFresh s.editor event
  · rw [if_pos hfresh] at heditor
    constructor
    · intro hkeeps
      have hapart := hkeeps.apart
      rw [heditor] at hapart
      exact (oneTabPerFile_reduce_iff hstate hfresh).mp hapart
    · intro happart
      refine ⟨?_, ?_, Or.inl ⟨projectId, event, rfl⟩⟩
      · rw [heditor]
        exact (oneTabPerFile_reduce_iff hstate hfresh).mpr happart
      · intro tab htab hdirty
        rw [heditor]
        refine (mem_reduce_of_dirty hstate htab hdirty event).imp_right ?_
        rintro ⟨choice, hchoice, rfl⟩
        exact ⟨projectId, choice, hchoice, rfl⟩
  · rw [if_neg hfresh] at heditor
    refine iff_of_true (keepsBuffers_of_editor_eq hstate heditor) ?_
    cases event with
    | rename source target => exact absurd trivial hfresh
    | _ => trivial

/-- An answer keeps every buffer exactly when it goes to a tab of the file that was read. -/
theorem keepsBuffers_settle_iff (hstate : OneTabPerFile s.editor) (walk task : ℕ) :
    s.KeepsBuffers shaOf (.settle walk task) ↔ s.SettlesOwn walk task := by
  constructor
  · intro hkeeps projectId path content sha key ed htask hfind hclean hsha
    have hed := List.mem_of_find?_eq_some hfind
    have heditor : (s.step shaOf (.settle walk task)).editor =
        reduce s.editor (.setBuffer ed.id content sha) := by
      simp only [step, settle, htask, Option.elim, applyDriftResult, hfind, if_neg hsha,
        if_pos hclean]
    have hne : { ed with buffer := content, heldSha := sha, dirty := false } ≠ ed := by
      intro heq
      exact hsha (congrArg Tab.heldSha heq)
    obtain ⟨_, _, hevent⟩ | hown := hkeeps.own
    · exact absurd hevent (by simp)
    · have hafter := mem_setBuffer hstate hed content sha
      rw [← heditor] at hafter
      have hreplaced := hown ed hed _ hafter
      obtain ⟨-, _, _, hevent, shellTab, _, hread⟩ := hreplaced rfl hne
      cases hevent
      rw [htask] at hread
      simp only [Option.some.injEq, DriftTask.mk.injEq, FsReadResponse.full.injEq] at hread
      exact hread.2.2.2
  · intro hown
    obtain heditor | ⟨projectId, path, content, sha, key, ed, htask, hfind, hclean, hsha,
      heditor⟩ := s.editor_settle walk task
    · exact keepsBuffers_of_editor_eq hstate heditor
    · have hstep : (s.step shaOf (.settle walk task)).editor =
          reduce s.editor (.setBuffer ed.id content sha) := heditor
      have hed := List.mem_of_find?_eq_some hfind
      refine ⟨?_, ?_, Or.inr ?_⟩
      · have hfresh : OpensFresh s.editor (.setBuffer ed.id content sha) := trivial
        rw [hstep]
        exact (oneTabPerFile_reduce_iff hstate hfresh).mpr trivial
      · intro tab htab hdirty
        rw [hstep]
        refine (mem_reduce_of_dirty hstate htab hdirty _).imp_right ?_
        rintro ⟨_, _, hevent⟩
        cases hevent
      · intro tab htab after hafter hid hne
        rw [hstep] at hafter
        obtain ⟨rfl, rfl⟩ := eq_of_mem_setBuffer hstate hed htab hafter hid hne
        refine ⟨hclean, walk, task, rfl, .file projectId path, sha, ?_⟩
        rw [← hown projectId path content sha key tab htask hfind hclean hsha]
        exact htask

theorem keepsBuffers_iff (hstate : OneTabPerFile s.editor) (event : WorkbenchEvent) :
    s.KeepsBuffers shaOf event ↔ s.IsHarmless event := by
  cases event with
  | editor projectId event => exact keepsBuffers_editor_iff hstate projectId event
  | settle walk task => exact keepsBuffers_settle_iff hstate walk task
  | openTab tab => exact iff_of_true (keepsBuffers_of_editor_eq hstate (editor_openTab tab)) trivial
  | closeTab tab =>
    exact iff_of_true (keepsBuffers_of_editor_eq hstate (editor_closeTab tab)) trivial
  | write projectId path content =>
    exact iff_of_true (keepsBuffers_of_editor_eq hstate rfl) trivial
  | runDriftCheck concurrency =>
    refine iff_of_true (keepsBuffers_of_editor_eq hstate ?_) trivial
    simp only [step]
    split <;> rfl
  | answer walk task outcome =>
    exact iff_of_true (keepsBuffers_of_editor_eq hstate rfl) trivial

/-- The editor is empty, and no drift check is under way. -/
def boot (shell : List ShellTab) (disk : Disk) : Workbench := { shell, disk }

/-- Every event of the run keeps every buffer. -/
def LosesNoBuffer (shaOf : List Char → List Char) (start : Workbench)
    (events : List WorkbenchEvent) : Prop :=
  Disciplined (step shaOf) (KeepsBuffers shaOf) start events

/-- From an empty editor, a run loses no buffer exactly when each of its events is harmless. -/
theorem losesNoBuffer_iff (shaOf : List Char → List Char) (shell : List ShellTab) (disk : Disk)
    (events : List WorkbenchEvent) :
    LosesNoBuffer shaOf (boot shell disk) events ↔
      Disciplined (step shaOf) IsHarmless (boot shell disk) events := by
  have hstep : ∀ (s : Workbench) (event : WorkbenchEvent), OneTabPerFile s.editor →
      s.KeepsBuffers shaOf event → OneTabPerFile (s.step shaOf event).editor :=
    fun _ _ _ hkeeps ↦ hkeeps.apart
  have hsame : ∀ (s : Workbench) (event : WorkbenchEvent), OneTabPerFile s.editor →
      (s.KeepsBuffers shaOf event ↔ s.IsHarmless event) :=
    fun _ event hstate ↦ keepsBuffers_iff hstate event
  exact disciplined_congr_of_invariant hstep hsame oneTabPerFile_initialState events

def readme : Path := "README.md".toList

/-- Two files are opened, and one of them is renamed to the other. -/
def renameOntoOpen : List WorkbenchEvent :=
  [.editor 1 (.open "a".toList 1), .editor 1 (.open "b".toList 2),
    .editor 1 (.rename "a".toList "b".toList)]

/-- Project 2 is shown with its README, while the shell has the READMEs of both projects. -/
def driftOfTwoProjects : List WorkbenchEvent :=
  [.editor 2 (.open readme 1), .editor 2 (.setBuffer 1 "two".toList "two".toList),
    .runDriftCheck 4, .answer 0 0 .read, .settle 0 0]

def twoReadmes : Disk where
  contents := fun key ↦
    if key = .original 1 readme then some "one".toList
    else if key = .original 2 readme then some "two".toList else none

/-- Two tabs get one path, and a tab gets the content of a file of another project. -/
theorem not_losesNoBuffer :
    ¬LosesNoBuffer id (boot [] { contents := fun _ ↦ none }) renameOntoOpen ∧
      ¬LosesNoBuffer id (boot [.file 1 readme, .file 2 readme] twoReadmes)
        driftOfTwoProjects := by
  constructor
  · intro hruns
    have hpaths := hruns.2.2.1.apart.paths
    exact absurd hpaths (by decide)
  · intro hruns
    obtain ⟨_, _, hevent⟩ | hown := hruns.2.2.2.2.1.own
    · cases hevent
    · obtain ⟨-, walk, task, hevent, shellTab, sha, hread⟩ :=
        hown ⟨1, readme, "two".toList, "two".toList, false, false⟩ (by decide)
          ⟨1, readme, "one".toList, "one".toList, false, false⟩ (by decide) rfl (by decide)
      cases hevent
      have hfirst : (taskAt (run (step id) (boot [.file 1 readme, .file 2 readme] twoReadmes)
          (driftOfTwoProjects.take 4)) 0 0).bind DriftTask.response =
            some (.full "one".toList "one".toList (.original 1 readme)) := by
        decide
      have hkey := (congrArg (Option.bind · DriftTask.response) hread).symm.trans hfirst
      cases hkey

end Workbench

end Flockctl.EditorTabs
