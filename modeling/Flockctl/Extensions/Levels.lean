import Flockctl.Collections.Fallible
import Flockctl.Collections.Overrides
import Flockctl.Encoding.Json
import Flockctl.Paths.Posix

/-!
# The levels of an installation

MCP servers and skills are installed at three levels, in directories of the daemon's home, of a
workspace and of a project; the configs of the workspace and of the project disable entries by
name and level.
-/

namespace Flockctl.Extensions

open Collections Paths

abbrev Name := List Char

inductive Level where
  | global
  | workspace
  | project
deriving DecidableEq

structure DisableEntry where
  name : Name
  level : Level
deriving DecidableEq

/-- The disable lists of a `.flockctl/config.json`; an absent list is `none`. -/
structure Config where
  disabledSkills : Option (List DisableEntry)
  disabledMcpServers : Option (List DisableEntry)

/-- What a directory holds under a name. -/
inductive Node where
  /-- A file, and what parsing it as JSON returns unless reading or parsing it throws. -/
  | file (parsed : Option Encoding.Json)
  /-- A directory, and whether it holds a `SKILL.md`. -/
  | directory (skillFile : Bool)
  /-- A link, and what reading and parsing its target gives if there is one. -/
  | link (target : Option (Option Encoding.Json))
  /-- A socket, a pipe or a device. -/
  | other

namespace Node

/-- `existsSync(path)`. -/
def found : Node → Bool
  | link none => false
  | _ => true

/-- `JSON.parse(readFileSync(path, "utf-8"))`. -/
def parse : Node → Option Encoding.Json
  | file parsed => parsed
  | link (some parsed) => parsed
  | _ => none

/-- `entry.isFile()`. -/
def isFile : Node → Bool
  | file _ => true
  | _ => false

end Node

/-- What is at the path of a directory: the nodes a lookup finds there, and whether `readdir` lists
them. -/
structure Directory where
  nodes : JsMap Name Node
  listable : Bool

namespace Directory

/-- `existsSync(join(dir, name))`. -/
def found (directory : Directory) (name : Name) : Bool :=
  (directory.nodes.get name).any Node.found

/-- `JSON.parse(readFileSync(join(dir, name), "utf-8"))`. -/
def parse (directory : Directory) (name : Name) : Option Encoding.Json :=
  (directory.nodes.get name).bind Node.parse

/-- `readdir(dir, { withFileTypes: true })`. -/
def readdir (directory : Directory) : Option (List (Name × Node)) :=
  if directory.listable then some directory.nodes.entries else none

end Directory

structure WorkspaceRow where
  path : List Char

structure ProjectRow where
  workspaceId : Option ℕ
  path : Option (List Char)
  useProjectClaudeSkills : Bool

/-- The rows of the database and the files the resolvers read; the identifiers SQLite assigns start
at one. -/
structure Installation where
  flockctlHome : NormalPath
  /-- What is at a path, unless `existsSync` finds nothing there. -/
  directory : NormalPath → Option Directory
  /-- The config a workspace has in the file at a path; a missing or broken file is an empty
  config. -/
  workspaceConfigAt : NormalPath → Config
  projectConfigAt : NormalPath → Config
  workspace : ℕ → Option WorkspaceRow
  project : ℕ → Option ProjectRow
  workspace_zero : workspace 0 = none

/-- `if (workspace?.path) …`. -/
def WorkspaceRow.root (workspace : WorkspaceRow) : Option NormalPath :=
  if workspace.path = [] then none else some (.ofText workspace.path)

/-- `if (project.path) …`. -/
def ProjectRow.root (project : ProjectRow) : Option NormalPath :=
  match project.path with
  | none => none
  | some path => if path = [] then none else some (.ofText path)

namespace Installation

def configPath (root : NormalPath) : NormalPath := root.join [".flockctl".toList, "config.json".toList]

/-- `loadWorkspaceConfig(workspacePath)`. -/
def loadWorkspaceConfig (installation : Installation) (root : NormalPath) : Config :=
  installation.workspaceConfigAt (configPath root)

/-- `loadProjectConfig(projectPath)`. -/
def loadProjectConfig (installation : Installation) (root : NormalPath) : Config :=
  installation.projectConfigAt (configPath root)

/-- `if (!projectId) …`, and the project's row. -/
def projectOf (installation : Installation) (projectId : Option ℕ) : Option ProjectRow :=
  match projectId with
  | none => none
  | some id => if id = 0 then none else installation.project id

/-- `if (project.workspaceId) { const workspace = …; if (workspace?.path) … }`. -/
def workspaceRoot (installation : Installation) (project : ProjectRow) : Option NormalPath :=
  match project.workspaceId with
  | none => none
  | some id => if id = 0 then none else (installation.workspace id).bind WorkspaceRow.root

end Installation

/-- A server or a skill: the name it is installed under and its level. -/
class Installed (Item : Type) where
  name : Item → Name
  level : Item → Level

/-- The names a disable list gives at a level. -/
def disabledNamesForLevel (entries : Option (List DisableEntry)) (level : Level) : List Name :=
  match entries with
  | none => []
  | some entries => (entries.filter fun entry ↦ entry.level = level).map DisableEntry.name

section

variable {Item : Type} [Installed Item]

/-- `for (const s of servers) out.set(s.name, s)`. -/
def setAll (servers : List Item) (out : JsMap Name Item) : JsMap Name Item :=
  setUnless Installed.name (fun _ ↦ false) servers out

/-- `for (const name of names) { const s = out.get(name); if (s && s.level === level)
out.delete(name); }`. -/
def deleteAtLevel (level : Level) (names : List Name) (out : JsMap Name Item) : JsMap Name Item :=
  deleteWhere (fun s ↦ decide (Installed.level s = level)) names out

/-- `for (const s of servers) if (!disabled.has(s.name)) out.set(s.name, s)`. -/
def setEnabled (disabled : List Name) (servers : List Item) (out : JsMap Name Item) :
    JsMap Name Item :=
  setUnless Installed.name (fun s ↦ disabled.contains (Installed.name s)) servers out

/-- The workspace's part of a resolver: the entries of the layers below that its config disables go,
and its own enabled entries come. -/
def layWorkspace (disables : Option (List DisableEntry)) (servers : List Item)
    (out : JsMap Name Item) : JsMap Name Item :=
  let wsDisabledGlobal := disabledNamesForLevel disables .global
  let wsDisabledWorkspace := disabledNamesForLevel disables .workspace
  setEnabled wsDisabledWorkspace servers (deleteAtLevel .global wsDisabledGlobal out)

/-- The project's part of a resolver. -/
def layProject (disables : Option (List DisableEntry)) (servers : List Item)
    (out : JsMap Name Item) : JsMap Name Item :=
  let projDisabledGlobal := disabledNamesForLevel disables .global
  let projDisabledWorkspace := disabledNamesForLevel disables .workspace
  let projDisabledProject := disabledNamesForLevel disables .project
  setEnabled projDisabledProject servers
    (deleteAtLevel .workspace projDisabledWorkspace (deleteAtLevel .global projDisabledGlobal out))

end

end Flockctl.Extensions

/-!
# Skills

A skill is a directory with a `SKILL.md`. The listing of a skills directory is not guarded, so a
directory that exists and cannot be listed makes the resolver throw. A project may opt in to the
skills it keeps in `.claude/skills` itself; these are laid over all levels and no disable list
applies to them.
-/

namespace Flockctl.Extensions

open Collections Paths

structure Skill where
  name : Name
  level : Level
  sourceDir : NormalPath
  locked : Bool := false
  nativeInTarget : Bool := false
deriving DecidableEq

instance : Installed Skill := ⟨Skill.name, Skill.level⟩

/-- `readdirSync` throws. -/
inductive ReaddirError where
  | readdir (dir : NormalPath)
deriving DecidableEq

/-- The loop both loaders share: the subdirectories that hold a `SKILL.md`. -/
def skillsIn (installation : Installation) (dir : NormalPath) (skill : Name → NormalPath → Skill) :
    Except ReaddirError (List Skill) :=
  match installation.directory dir with
  | none => .ok []
  | some directory =>
      match directory.readdir with
      | none => .error (.readdir dir)
      | some entries => .ok <| entries.filterMap fun entry ↦
          match entry.2 with
          | .directory true => some (skill entry.1 (dir.join [entry.1]))
          | _ => none

/-- `loadSkillsFromDir(dir, level)`. -/
def loadSkillsFromDir (installation : Installation) (dir : NormalPath) (level : Level) :
    Except ReaddirError (List Skill) :=
  skillsIn installation dir fun name skillDir ↦
    { name := name, level := level, sourceDir := skillDir }

/-- `loadProjectClaudeSkills(projectPath)`. -/
def loadProjectClaudeSkills (installation : Installation) (root : NormalPath) :
    Except ReaddirError (List Skill) :=
  skillsIn installation (root.join [".claude".toList, "skills".toList]) fun name skillDir ↦
    { name := name, level := .project, sourceDir := skillDir, locked := true
      nativeInTarget := true }

def globalSkillsDir (installation : Installation) : NormalPath :=
  installation.flockctlHome.join ["skills".toList]

def skillsDir (root : NormalPath) : NormalPath := root.join [".flockctl".toList, "skills".toList]

/-- `resolveSkillsForProject(projectId)`. -/
def resolveSkillsForProject (installation : Installation) (projectId : Option ℕ) :
    Except ReaddirError (List Skill) := do
  let globals ← loadSkillsFromDir installation (globalSkillsDir installation) .global
  let out := setAll globals JsMap.empty
  match installation.projectOf projectId with
  | none => return out.entries.map Prod.snd
  | some project =>
      let out ← match installation.workspaceRoot project with
        | none => pure out
        | some root => do
            let skills ← loadSkillsFromDir installation (skillsDir root) .workspace
            pure (layWorkspace (installation.loadWorkspaceConfig root).disabledSkills skills out)
      let out ← match project.root with
        | none => pure out
        | some root => do
            let skills ← loadSkillsFromDir installation (skillsDir root) .project
            let out := layProject (installation.loadProjectConfig root).disabledSkills skills out
            if project.useProjectClaudeSkills then do
              let native ← loadProjectClaudeSkills installation root
              pure (setAll native out)
            else pure out
      return out.entries.map Prod.snd

/-- `resolveSkillsForWorkspace(workspaceId)`. -/
def resolveSkillsForWorkspace (installation : Installation) (workspaceId : ℕ) :
    Except ReaddirError (List Skill) := do
  let globals ← loadSkillsFromDir installation (globalSkillsDir installation) .global
  let out := setAll globals JsMap.empty
  match (installation.workspace workspaceId).bind WorkspaceRow.root with
  | none => return out.entries.map Prod.snd
  | some root =>
      let skills ← loadSkillsFromDir installation (skillsDir root) .workspace
      let out := layWorkspace (installation.loadWorkspaceConfig root).disabledSkills skills out
      return out.entries.map Prod.snd

end Flockctl.Extensions
