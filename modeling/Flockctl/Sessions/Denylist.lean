import Flockctl.Sessions.AgentSession

/-!
# The denylist and the files it is for

The master key and the database lie in the daemon's home, and a tool reads a relative path from
the session's working directory. The denylist looks for these files in `~/Flockctl`, reads a
relative path from the working directory of the daemon, and looks at one argument of a call only.
It denies a call that names a protected file exactly when these differences do not matter.
-/

namespace Flockctl.Sessions

open Paths Permissions

/-- Where the tool calls of a session are decided and where they are carried out. -/
structure Deployment where
  host : Host
  daemonHome : AbsolutePath
  workingDir : AbsolutePath

namespace Deployment

variable (d : Deployment)

def getMasterKeyPath : AbsolutePath := resolve d.daemonHome "secret.key"

def databasePath : AbsolutePath := resolve d.daemonHome "flockctl.db"

/-- The files no tool call may touch. -/
def protectedFiles (roots : List AbsolutePath) : List AbsolutePath :=
  d.getMasterKeyPath :: d.databasePath :: roots.map fun root ↦ resolve root ".mcp.json"

/-- The files the denylist stands for. -/
def deniedFiles (roots : List AbsolutePath) : List AbsolutePath :=
  DENIED_IN_FLOCKCTL_ROOT.map (resolve (flockctlRoot d.host)) ++
    roots.map fun root ↦ resolve root ".mcp.json"

end Deployment

/-- The keys a tool takes a path under, in its SDK form or as an agent tool of the daemon. -/
def pathKeys (toolName : String) : List String :=
  if toolName ∈ ["Read", "Write", "Edit", "NotebookEdit", "NotebookRead"] then
    ["file_path", "notebook_path", "path"]
  else if toolName = "MultiEdit" then ["file_path", "path"]
  else if toolName ∈ ["Glob", "Grep", "LS"] then ["path"]
  else []

/-- The keys the denylist reads. -/
def checkedKeys (toolName : String) : List String :=
  if toolName = "MultiEdit" then ["file_path"] else pathKeys toolName

theorem pathText_filter (value : Option InputValue) :
    pathText (value.filter (· != .null)) = pathText value := by
  cases value with
  | none => rfl
  | some value => cases value <;> rfl

theorem firstGiven_singleton (input : ToolInput) (key : String) :
    firstGiven input [key] = (input key).filter (· != .null) := by
  rw [firstGiven, List.findSome?_cons]
  cases (input key).filter (· != .null) <;> rfl

theorem extractToolPaths_eq (toolName : String) (input : ToolInput) :
    extractToolPaths toolName input = pathText (firstGiven input (checkedKeys toolName)) := by
  by_cases hmulti : toolName = "MultiEdit"
  · rw [hmulti, checkedKeys, if_pos rfl, firstGiven_singleton, pathText_filter]
    rfl
  · rw [extractToolPaths, checkedKeys, if_neg hmulti, pathKeys, if_neg hmulti, if_neg hmulti]
    split
    · rfl
    · split
      · rw [firstGiven_singleton, pathText_filter]
      · rfl

/-- An argument of the call: a path text under a key of the tool. -/
def IsArgument (toolName : String) (input : ToolInput) (key path : String) : Prop :=
  key ∈ pathKeys toolName ∧ input key = some (.string path)

/-- The argument the denylist looks at: the first one given, unless it is empty. -/
def IsChecked (toolName : String) (input : ToolInput) (path : String) : Prop :=
  firstGiven input (checkedKeys toolName) = some (.string path) ∧ path ≠ ""

theorem mem_extractToolPaths_iff (toolName : String) (input : ToolInput) (path : String) :
    path ∈ extractToolPaths toolName input ↔ IsChecked toolName input path := by
  rw [extractToolPaths_eq, IsChecked]
  cases hgiven : firstGiven input (checkedKeys toolName) with
  | none => simp [pathText]
  | some value =>
    cases value with
    | null => simp [pathText]
    | other => simp [pathText]
    | string text =>
      by_cases htext : text = ""
      · simp only [pathText, htext, if_true, List.not_mem_nil, Option.some.injEq,
          InputValue.string.injEq, false_iff, not_and, not_not]
        exact Eq.symm
      · simp only [pathText, htext, if_false, List.mem_singleton, Option.some.injEq,
          InputValue.string.injEq]
        constructor
        · rintro rfl
          exact ⟨rfl, htext⟩
        · rintro ⟨rfl, -⟩
          rfl

theorem isSome_find?_deniedInProjectRoot (test : String → Bool) :
    (DENIED_IN_PROJECT_ROOT.find? test).isSome = test ".mcp.json" := by
  rw [DENIED_IN_PROJECT_ROOT, List.find?_singleton]
  cases test ".mcp.json" <;> rfl

theorem isPathDenied_isSome_iff (d : Deployment) (roots : List AbsolutePath) {path : String}
    (hpath : path ≠ "") :
    (isPathDenied d.host path roots).isSome = true ↔
      resolve d.host.cwd path ∈ d.deniedFiles roots := by
  rw [isPathDenied, if_neg hpath, Deployment.deniedFiles, List.mem_append, List.mem_map,
    List.mem_map]
  cases hname : DENIED_IN_FLOCKCTL_ROOT.find? fun name ↦
      resolve d.host.cwd path == resolve (flockctlRoot d.host) name with
  | some name =>
    have hfound := List.find?_some hname
    have hmem := List.mem_of_find?_eq_some hname
    simp only [Option.isSome_some, true_iff]
    exact Or.inl ⟨name, hmem, (beq_iff_eq.mp hfound).symm⟩
  | none =>
    have hnone : ∀ name ∈ DENIED_IN_FLOCKCTL_ROOT,
        resolve (flockctlRoot d.host) name ≠ resolve d.host.cwd path := by
      intro name hmem heq
      exact List.find?_eq_none.mp hname name hmem (beq_iff_eq.mpr heq.symm)
    rw [List.isSome_findSome?, List.any_eq_true]
    constructor
    · rintro ⟨root, hroot, hfile⟩
      rw [Option.isSome_map, isSome_find?_deniedInProjectRoot, beq_iff_eq] at hfile
      exact Or.inr ⟨root, hroot, hfile.symm⟩
    · rintro (⟨name, hmem, heq⟩ | ⟨root, hroot, heq⟩)
      · exact absurd heq (hnone name hmem)
      · refine ⟨root, hroot, ?_⟩
        rw [Option.isSome_map, isSome_find?_deniedInProjectRoot, beq_iff_eq]
        exact heq.symm

/-- A call is denied in every mode exactly when the argument the denylist looks at is on it, read
from the daemon's working directory. -/
theorem denied_in_every_mode_iff (d : Deployment) (s : AgentSession) (toolName : String)
    (input : ToolInput) :
    (∀ mode, ∃ message,
      ({ s with permissionMode := mode }.canUseTool d.host toolName input).2 = .deny message) ↔
    ∃ path, IsChecked toolName input path ∧
      resolve d.host.cwd path ∈ d.deniedFiles s.allowedRoots := by
  have hdenied : (∃ message, denyIfTouchesSensitivePath d.host toolName input s.allowedRoots =
      some message) ↔ ∃ path, IsChecked toolName input path ∧
        resolve d.host.cwd path ∈ d.deniedFiles s.allowedRoots := by
    rw [← Option.isSome_iff_exists, denyIfTouchesSensitivePath, List.isSome_findSome?,
      List.any_eq_true]
    apply exists_congr
    intro path
    rw [mem_extractToolPaths_iff]
    exact and_congr_right fun hchecked ↦ isPathDenied_isSome_iff d s.allowedRoots hchecked.2
  rw [← hdenied]
  constructor
  · intro hmodes
    -- in `bypassPermissions` nothing but the denylist denies
    obtain ⟨message, hmessage⟩ := hmodes .bypassPermissions
    rw [AgentSession.canUseTool] at hmessage
    cases hlist : denyIfTouchesSensitivePath d.host toolName input s.allowedRoots with
    | some reason => exact ⟨reason, rfl⟩
    | none => simp [decideTool, hlist] at hmessage
  · rintro ⟨message, hmessage⟩ mode
    refine ⟨message, ?_⟩
    have hdecide := (decideTool_eq_deny_iff d.host mode toolName input s.allowedRoots
      message).mpr hmessage
    rw [AgentSession.canUseTool]
    simp only [hdecide]

/-- An argument of the call denotes a protected file. -/
def NamesProtected (d : Deployment) (roots : List AbsolutePath) (toolName : String)
    (input : ToolInput) : Prop :=
  ∃ key path, IsArgument toolName input key path ∧
    resolve d.workingDir path ∈ d.protectedFiles roots

/-- The denylist sees what the tool will see of an argument. -/
structure SeenAlike (d : Deployment) (roots : List AbsolutePath) (toolName : String)
    (input : ToolInput) (path : String) : Prop where
  checked : IsChecked toolName input path
  base : isAbsolute path = true ∨ d.workingDir = d.host.cwd
  home : d.daemonHome = flockctlRoot d.host ∨
    ∃ root ∈ roots, resolve d.workingDir path = resolve root ".mcp.json"

theorem SeenAlike.denied {d : Deployment} {roots : List AbsolutePath} {toolName : String}
    {input : ToolInput} {path : String} (h : SeenAlike d roots toolName input path)
    (hprotected : resolve d.workingDir path ∈ d.protectedFiles roots) :
    resolve d.host.cwd path ∈ d.deniedFiles roots := by
  have hbase : resolve d.host.cwd path = resolve d.workingDir path := by
    rcases h.base with habsolute | hsame
    · exact resolve_eq_of_isAbsolute habsolute _ _
    · rw [hsame]
  rw [hbase, Deployment.deniedFiles, List.mem_append]
  rcases h.home with hhome | ⟨root, hroot, hfile⟩
  · rw [Deployment.protectedFiles, Deployment.getMasterKeyPath, Deployment.databasePath, hhome,
      List.mem_cons, List.mem_cons] at hprotected
    rcases hprotected with hkey | hdatabase | hmcp
    · exact Or.inl (List.mem_map.mpr ⟨"secret.key", by decide, hkey.symm⟩)
    · exact Or.inl (List.mem_map.mpr ⟨"flockctl.db", by decide, hdatabase.symm⟩)
    · exact Or.inr hmcp
  · exact Or.inr (List.mem_map.mpr ⟨root, hroot, hfile.symm⟩)

/-- A call that names a protected file is denied in every mode exactly when the argument the
denylist looks at is on it, read from the daemon's working directory; in particular when an
argument that names a protected file is the one looked at, means the same from there, and the
daemon's home is `~/Flockctl` or the file is the `.mcp.json` of a root. -/
theorem denylist_covers_iff (d : Deployment) (s : AgentSession) (toolName : String)
    (input : ToolInput) :
    ((NamesProtected d s.allowedRoots toolName input → ∀ mode, ∃ message,
        ({ s with permissionMode := mode }.canUseTool d.host toolName input).2 = .deny message) ↔
      (¬NamesProtected d s.allowedRoots toolName input ∨
        ∃ path, IsChecked toolName input path ∧
          resolve d.host.cwd path ∈ d.deniedFiles s.allowedRoots)) ∧
    ((∃ key path, IsArgument toolName input key path ∧
        resolve d.workingDir path ∈ d.protectedFiles s.allowedRoots ∧
        SeenAlike d s.allowedRoots toolName input path) →
      ∀ mode, ∃ message,
        ({ s with permissionMode := mode }.canUseTool d.host toolName input).2 =
          .deny message) := by
  constructor
  · rw [denied_in_every_mode_iff d s toolName input, imp_iff_not_or]
  · rintro ⟨key, path, -, hprotected, halike⟩
    rw [denied_in_every_mode_iff d s toolName input]
    exact ⟨path, halike.checked, halike.denied hprotected⟩

/-- The daemon of user `u` with its default home, started from `/`, and a session in a project. -/
def defaultDeployment : Deployment where
  host := { homedir := resolve ⟨[], names_nil⟩ "/home/u", cwd := ⟨[], names_nil⟩ }
  daemonHome := resolve ⟨[], names_nil⟩ "/home/u/flockctl"
  workingDir := resolve ⟨[], names_nil⟩ "/home/u/app"

/-- A call with one argument names a protected file of the default deployment, and `canUseTool`
allows it. -/
def AllowsProtected (toolName key path : String) : Prop :=
  NamesProtected defaultDeployment [defaultDeployment.workingDir] toolName
      (fun other ↦ if other = key then some (.string path) else none) ∧
    (AgentSession.canUseTool defaultDeployment.host
      { ref := .task 5, permissionMode := .bypassPermissions,
        allowedRoots := [defaultDeployment.workingDir] } toolName
      fun other ↦ if other = key then some (.string path) else none).2 = .allow

/-- The master key in the daemon's home, the `.mcp.json` of the project by its relative path, and
the same file as the `path` of `MultiEdit`: each call names a protected file and is allowed. -/
theorem protected_files_allowed :
    AllowsProtected "Read" "file_path" "/home/u/flockctl/secret.key" ∧
      AllowsProtected "Read" "file_path" "./.mcp.json" ∧
      AllowsProtected "MultiEdit" "path" "/home/u/app/.mcp.json" := by
  have hallows (toolName key path : String) (hkey : key ∈ pathKeys toolName)
      (hprotected : resolve defaultDeployment.workingDir path ∈
        defaultDeployment.protectedFiles [defaultDeployment.workingDir])
      (hallow : (AgentSession.canUseTool defaultDeployment.host
        { ref := .task 5, permissionMode := .bypassPermissions,
          allowedRoots := [defaultDeployment.workingDir] } toolName
        fun other ↦ if other = key then some (.string path) else none).2 = .allow) :
      AllowsProtected toolName key path :=
    ⟨⟨key, path, ⟨hkey, if_pos rfl⟩, hprotected⟩, hallow⟩
  refine ⟨hallows _ _ _ ?_ ?_ ?_, hallows _ _ _ ?_ ?_ ?_, hallows _ _ _ ?_ ?_ ?_⟩ <;>
    decide +kernel

end Flockctl.Sessions
