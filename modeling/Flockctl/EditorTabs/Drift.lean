import Flockctl.Collections.JsMap
import Flockctl.EditorTabs.Machine
import Flockctl.Transition.Run

/-!
# The drift check

When the socket has been reconnected, every file tab of the shell is compared with its file: the
file is fetched by the project and the path of the shell tab, at most so many at a time, and the
answer is applied to the editor tab with that path. The editor tabs do not say what project they
belong to, and files may be renamed while an answer is awaited.
-/

namespace Flockctl.EditorTabs

open Collections Transition

abbrev ProjectId := ℕ

/-- A tab of the shell: a file of a project, or a commit or a diff. -/
inductive ShellTab
  | file (projectId : ProjectId) (path : Path)
  | other (id : ℕ)
  deriving DecidableEq, Repr

inductive ReconnectBannerState
  | changed (currentSha : List Char)
  | deleted
  deriving DecidableEq, Repr

/-- What a file is called for as long as it exists: by the place it had at first, or by a number if
its place became free by a rename. -/
inductive FileKey
  | original (projectId : ProjectId) (path : Path)
  | made (number : ℕ)
  deriving DecidableEq, Repr

/-- The file at each place of each project, and the contents of the files that exist. -/
structure Disk where
  fileAt : ProjectId → Path → FileKey := .original
  contents : FileKey → Option (List Char)
  made : ℕ := 0

def Disk.rename (disk : Disk) (projectId : ProjectId) (source target : Path) : Disk where
  fileAt := fun project path ↦
    if project = projectId ∧ path = target then disk.fileAt projectId source
    else if project = projectId ∧ path = source then .made disk.made
    else disk.fileAt project path
  contents := Function.update disk.contents (.made disk.made) none
  made := disk.made + 1

def Disk.write (disk : Disk) (projectId : ProjectId) (path : Path)
    (content : Option (List Char)) : Disk :=
  { disk with contents := Function.update disk.contents (disk.fileAt projectId path) content }

/-- How a fetch ends. `full` names the file that was read. -/
inductive FsReadResponse
  | full (content sha : List Char) (key : FileKey)
  | partly
  | notFound
  | failed
  | threw
  deriving DecidableEq, Repr

/-- A tab that is being walked, and the answer to its fetch. -/
structure DriftTask where
  tab : ShellTab
  response : Option FsReadResponse := none
  deriving DecidableEq, Repr

/-- The tasks of a drift check under `makeLimit`: those that run and those that wait. -/
structure DriftWalk where
  active : List DriftTask
  queue : List ShellTab
  deriving DecidableEq, Repr

/-- Every tab is handed to the limit, which runs the first ones. -/
def startWalk (concurrency : ℕ) (tabs : List ShellTab) : DriftWalk where
  active := (tabs.take concurrency).map ({ tab := · })
  queue := tabs.drop concurrency

/-- `release`: a task ends, and the next one runs. -/
def DriftWalk.release (walk : DriftWalk) (task : ℕ) : DriftWalk where
  active := walk.active.eraseIdx task ++ (walk.queue.take 1).map ({ tab := · })
  queue := walk.queue.drop 1

/-- How the server answers a fetch. -/
inductive FetchOutcome
  | read
  | partly
  | failed
  | threw
  deriving DecidableEq, Repr

/-- The two stores, the files and the walks. `owner` is the project an editor tab was opened in,
which the store does not keep. -/
structure Workbench where
  editor : State := initialState
  shell : List ShellTab
  banners : JsMap ShellTab ReconnectBannerState := JsMap.empty
  disk : Disk
  walks : List DriftWalk := []
  owner : TabId → ProjectId := fun _ ↦ 0

/-- An event of the editor comes from the project that is shown. -/
inductive WorkbenchEvent
  | editor (projectId : ProjectId) (event : Event)
  | openTab (tab : ShellTab)
  | closeTab (tab : ShellTab)
  | write (projectId : ProjectId) (path : Path) (content : Option (List Char))
  | runDriftCheck (concurrency : ℕ)
  | answer (walk task : ℕ) (outcome : FetchOutcome)
  | settle (walk task : ℕ)
  deriving DecidableEq, Repr

instance decidableOpensFresh (state : State) : ∀ event, Decidable (OpensFresh state event)
  | .open _ newId => inferInstanceAs (Decidable (newId ∉ state.tabs.map Tab.id))
  | .close _ | .confirmClose _ _ | .focus _ | .setDirty _ _ | .setBuffer _ _ _ | .rename _ _ =>
    inferInstanceAs (Decidable True)

namespace Workbench

variable (shaOf : List Char → List Char) (s : Workbench)

def openTab (tab : ShellTab) : Workbench :=
  if tab ∈ s.shell then s else { s with shell := s.shell ++ [tab] }

def closeTab (tab : ShellTab) : Workbench :=
  if tab ∈ s.shell then
    { s with shell := s.shell.filter (· ≠ tab), banners := s.banners.delete tab }
  else s

def setBanner (tab : ShellTab) (banner : ReconnectBannerState) : Workbench :=
  if tab ∈ s.shell then { s with banners := s.banners.set tab banner } else s

/-- The rename handler replaces every file tab of the shell with that path, in any project. -/
def renameShellTab (source target : Path) (s : Workbench) : ShellTab → Workbench
  | .file projectId path =>
    if path = source then (s.closeTab (.file projectId path)).openTab (.file projectId target)
    else s
  | .other _ => s

def handleRename (source target : Path) : Workbench :=
  s.shell.foldl (renameShellTab source target) s

theorem lawfulBEq_path : LawfulBEq Path := inferInstance

attribute [local instance] lawfulBEq_path

/-- What comes with an event of the editor: a new tab belongs to the project that is shown, and a
rename is one on the disk, which the shell follows. -/
def around (projectId : ProjectId) : Event → Workbench
  | .open path newId =>
    if path ∈ s.editor.tabs.map Tab.path then s
    else { s with owner := Function.update s.owner newId projectId }
  | .rename source target =>
    { s with disk := s.disk.rename projectId source target }.handleRename source target
  | _ => s

/-- Ids are drawn fresh. -/
def dispatch (projectId : ProjectId) (event : Event) : Workbench :=
  if OpensFresh s.editor event then
    { s.around projectId event with editor := reduce s.editor event }
  else s

/-- `lookupEditorState`: by the path alone. -/
def lookupEditorState (path : Path) : Option Tab := s.editor.tabs.find? (·.path = path)

def applyDriftResult (tab : ShellTab) (fresh : FsReadResponse) : Workbench :=
  match tab, fresh with
  | .file _ _, .notFound => s.setBanner tab .deleted
  | .file _ path, .full content sha _ =>
    match s.lookupEditorState path with
    | none => s
    | some ed =>
      if sha = ed.heldSha then s
      else if ed.dirty = false then
        { s with editor := reduce s.editor (.setBuffer ed.id content sha) }
      else s.setBanner tab (.changed sha)
  | _, _ => s

/-- The answer to a fetch of a file, as the disk is at that time. -/
def fetch (projectId : ProjectId) (path : Path) : FetchOutcome → FsReadResponse
  | .read =>
    match s.disk.contents (s.disk.fileAt projectId path) with
    | none => .notFound
    | some content => .full content (shaOf content) (s.disk.fileAt projectId path)
  | .partly => .partly
  | .failed => .failed
  | .threw => .threw

/-- A task that runs. -/
def taskAt (walk task : ℕ) : Option DriftTask := (s.walks[walk]?).bind (·.active[task]?)

def answerTask (outcome : FetchOutcome) (task : DriftTask) : DriftTask :=
  match task.tab, task.response with
  | .file projectId path, none =>
    { task with response := some (s.fetch shaOf projectId path outcome) }
  | _, _ => task

/-- The rest of a task, behind its `await`. A task for a tab of another kind has nothing to do. -/
def settle (walk task : ℕ) : Workbench :=
  match s.taskAt walk task with
  | none => s
  | some ⟨.file _ _, none⟩ => s
  | some ⟨tab, response⟩ =>
    { response.elim s (s.applyDriftResult tab) with
      walks := s.walks.modify walk (·.release task) }

def step (s : Workbench) : WorkbenchEvent → Workbench
  | .editor projectId event => s.dispatch projectId event
  | .openTab tab => s.openTab tab
  | .closeTab tab => s.closeTab tab
  | .write projectId path content => { s with disk := s.disk.write projectId path content }
  | .runDriftCheck concurrency =>
    if concurrency < 1 then s
    else { s with walks := s.walks ++ [startWalk concurrency s.shell] }
  | .answer walk task outcome =>
    { s with
      walks := s.walks.modify walk fun walk ↦
        { walk with active := walk.active.modify task (s.answerTask shaOf outcome) } }
  | .settle walk task => s.settle walk task

end Workbench

end Flockctl.EditorTabs
