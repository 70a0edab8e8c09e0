import Flockctl.Paths.Posix

/-!
# The permission resolver

The classes of tools, the paths a tool call names, the hard denylist of paths and the decision of
the mode `auto`. Relative paths are resolved against the working directory of the process.
-/

namespace Flockctl.Permissions

open Paths

/-- `PermissionMode`. -/
inductive PermissionMode
  | default
  | acceptEdits
  | plan
  | bypassPermissions
  | auto
  deriving DecidableEq, Repr

/-- What the daemon reads from its process: `homedir()` and `process.cwd()`. -/
structure Host where
  homedir : AbsolutePath
  cwd : AbsolutePath

/-- A value of a tool input. -/
inductive InputValue
  | null
  | string (value : String)
  | other
  deriving DecidableEq, Repr

/-- `Record<string, unknown>`, the input of a tool call. -/
abbrev ToolInput := String → Option InputValue

def READ_ONLY_TOOLS : List String := ["Read", "Grep", "Glob", "LS", "NotebookRead", "Skill"]

def FILE_WRITE_TOOLS : List String := ["Write", "Edit", "MultiEdit", "NotebookEdit"]

def DENIED_IN_FLOCKCTL_ROOT : List String :=
  ["secret.key", "flockctl.db", "flockctl.db-wal", "flockctl.db-shm"]

def DENIED_IN_PROJECT_ROOT : List String := [".mcp.json"]

def flockctlRoot (host : Host) : AbsolutePath := resolve host.homedir "Flockctl"

/-- `a ?? b ?? …` over the values of some keys. -/
def firstGiven (input : ToolInput) (keys : List String) : Option InputValue :=
  keys.findSome? fun key ↦ (input key).filter (· != .null)

/-- The value, if it is a nonempty string. -/
def pathText : Option InputValue → List String
  | some (.string value) => if value = "" then [] else [value]
  | _ => []

def extractToolPaths (toolName : String) (input : ToolInput) : List String :=
  if toolName ∈ ["Read", "Write", "Edit", "NotebookEdit", "NotebookRead"] then
    pathText (firstGiven input ["file_path", "notebook_path", "path"])
  else if toolName = "MultiEdit" then pathText (input "file_path")
  else if toolName ∈ ["Glob", "Grep", "LS"] then pathText (input "path")
  else []

/-- `pathWithinRoot(path, root)`: the relative path is nonempty and does not start with two
dots. -/
def pathWithinRoot (path root : AbsolutePath) : Bool :=
  root.segments.isPrefixOf path.segments &&
    match path.segments.drop root.segments.length with
    | [] => false
    | first :: _ => !(['.', '.'].isPrefixOf first)

def isPathWithinRoots (host : Host) (path : String) (roots : List AbsolutePath) : Bool :=
  path != "" && roots.any fun root ↦
    resolve host.cwd path == root || pathWithinRoot (resolve host.cwd path) root

/-- `isPathDenied`: the reason, if the path is denied. -/
def isPathDenied (host : Host) (path : String) (roots : List AbsolutePath) : Option String :=
  if path = "" then none
  else
    match DENIED_IN_FLOCKCTL_ROOT.find? fun name ↦
        resolve host.cwd path == resolve (flockctlRoot host) name with
    | some name => some (name ++
        " is a Flockctl internal file (master key / database) and cannot be accessed by agents")
    | none =>
      roots.findSome? fun root ↦
        (DENIED_IN_PROJECT_ROOT.find? fun name ↦
          resolve host.cwd path == resolve root name).map fun name ↦ name ++
            " is auto-generated by Flockctl and contains plaintext secrets — access is blocked; " ++
            "edit sources under .flockctl/mcp/ instead"

def denyIfTouchesSensitivePath (host : Host) (toolName : String) (input : ToolInput)
    (roots : List AbsolutePath) : Option String :=
  (extractToolPaths toolName input).findSome? fun path ↦ isPathDenied host path roots

inductive AutoDecision
  | allow (reason : String)
  | prompt (reason : String)
  deriving DecidableEq, Repr

def AutoDecision.isAllow : AutoDecision → Bool
  | .allow _ => true
  | .prompt _ => false

def decideAuto (host : Host) (toolName : String) (input : ToolInput) (roots : List AbsolutePath) :
    AutoDecision :=
  if READ_ONLY_TOOLS.contains toolName then .allow "read-only tool"
  else if FILE_WRITE_TOOLS.contains toolName then
    match extractToolPaths toolName input with
    | [] => .prompt "no path provided"
    | paths =>
      match paths.filter fun path ↦ !isPathWithinRoots host path roots with
      | [] => .allow "all paths within allowed roots"
      | outside :: _ => .prompt ("path outside allowed roots: " ++ outside)
  else .prompt ("tool " ++ toolName ++ " requires approval")

/-- How `canUseTool` answers at once, or that it asks the user. -/
inductive ToolDecision
  | allow
  | deny (message : String)
  | prompt
  deriving DecidableEq, Repr

/-- `canUseTool` up to the point where it would open a prompt: the denylist first, then the
mode. -/
def decideTool (host : Host) (mode : PermissionMode) (toolName : String) (input : ToolInput)
    (roots : List AbsolutePath) : ToolDecision :=
  match denyIfTouchesSensitivePath host toolName input roots with
  | some reason => .deny reason
  | none =>
    match mode with
    | .bypassPermissions => .allow
    | .acceptEdits =>
      if FILE_WRITE_TOOLS.contains toolName || READ_ONLY_TOOLS.contains toolName then .allow
      else .prompt
    | .plan => if READ_ONLY_TOOLS.contains toolName then .allow else .prompt
    | .auto => if (decideAuto host toolName input roots).isAllow then .allow else .prompt
    | .default => .prompt

/-- Only the denylist denies, whatever the mode. -/
theorem decideTool_eq_deny_iff (host : Host) (mode : PermissionMode) (toolName : String)
    (input : ToolInput) (roots : List AbsolutePath) (message : String) :
    decideTool host mode toolName input roots = .deny message ↔
      denyIfTouchesSensitivePath host toolName input roots = some message := by
  unfold decideTool
  cases hdenied : denyIfTouchesSensitivePath host toolName input roots with
  | some reason => simp
  | none => cases mode <;> simp <;> split <;> simp

end Flockctl.Permissions
