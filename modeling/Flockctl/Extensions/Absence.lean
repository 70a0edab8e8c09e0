import Flockctl.Extensions.Loading
import Flockctl.Extensions.Scope

/-!
# Disabling means absence

The five resolvers against the set that deletes every disabled entry first and lets the levels
override each other afterwards. They agree exactly where no global entry is lost to a workspace
entry that the project's config takes away again, and, for skills, where the directories can be
listed. The synchronous and the asynchronous resolver return equal lists always.
-/

namespace Flockctl.Extensions

open Collections Paths

/-- The servers of a directory, if there is one to look at. -/
def serversAt (installation : Installation) (dir : Option NormalPath) (level : Level) :
    List McpServer :=
  match dir with
  | none => []
  | some dir => loadMcpServersFromDir installation dir level

variable (installation : Installation)

theorem level_of_mem_serversAt (dir : Option NormalPath)
    (level : Level) :
    ∀ server ∈ serversAt installation dir level, Installed.level server = level := by
  cases dir with
  | none => exact fun server h ↦ absurd h List.not_mem_nil
  | some dir => exact level_of_mem_loadMcpServersFromDir installation dir level

theorem nodup_serversAt (dir : Option NormalPath) (level : Level) :
    ((serversAt installation dir level).map Installed.name).Nodup := by
  cases dir with
  | none => exact List.nodup_nil
  | some dir => exact nodup_loadMcpServersFromDir installation dir level

/-- The servers and the disable lists below a workspace and a project. -/
def mcpScope (installation : Installation) (wsRoot projRoot : Option NormalPath) :
    Scope McpServer where
  globals := serversAt installation (some (globalMcpDir installation)) .global
  workspaces := serversAt installation (wsRoot.map mcpDir) .workspace
  projects := serversAt installation (projRoot.map mcpDir) .project
  native := []
  wsDisables := wsRoot.bind fun root ↦ (installation.loadWorkspaceConfig root).disabledMcpServers
  projDisables := projRoot.bind fun root ↦ (installation.loadProjectConfig root).disabledMcpServers
  globals_level := level_of_mem_serversAt _ _ _
  workspaces_level := level_of_mem_serversAt _ _ _
  projects_level := level_of_mem_serversAt _ _ _
  globals_nodup := nodup_serversAt _ _ _
  workspaces_nodup := nodup_serversAt _ _ _
  projects_nodup := nodup_serversAt _ _ _
  native_nodup := List.nodup_nil

/-- The roots a project's identifier leads to: the workspace's and the project's. -/
def rootsOf (installation : Installation) (projectId : Option ℕ) :
    Option NormalPath × Option NormalPath :=
  match installation.projectOf projectId with
  | none => (none, none)
  | some project => (installation.workspaceRoot project, project.root)

def mcpScopeOfProject (installation : Installation) (projectId : Option ℕ) : Scope McpServer :=
  mcpScope installation (rootsOf installation projectId).1 (rootsOf installation projectId).2

def rootOfWorkspace (installation : Installation) (workspaceId : ℕ) : Option NormalPath :=
  (installation.workspace workspaceId).bind WorkspaceRow.root

def mcpScopeOfWorkspace (installation : Installation) (workspaceId : ℕ) : Scope McpServer :=
  mcpScope installation (rootOfWorkspace installation workspaceId) none

/-- The skills of a directory, if there is one to look at. -/
def skillsAt (installation : Installation) (dir : Option NormalPath) (level : Level) :
    List Skill :=
  match dir with
  | none => []
  | some dir => entriesOrNone (loadSkillsFromDir installation dir level)

theorem level_of_mem_skillsAt (dir : Option NormalPath)
    (level : Level) :
    ∀ skill ∈ skillsAt installation dir level, Installed.level skill = level := by
  cases dir with
  | none => exact fun skill h ↦ absurd h List.not_mem_nil
  | some dir => exact level_of_mem_skillsIn installation dir fun _ _ ↦ rfl

theorem nodup_skillsAt (dir : Option NormalPath) (level : Level) :
    ((skillsAt installation dir level).map Installed.name).Nodup := by
  cases dir with
  | none => exact List.nodup_nil
  | some dir => exact nodup_skillsIn installation dir fun _ _ ↦ rfl

/-- The skills a project brings along itself. -/
def nativeAt (installation : Installation) (root : Option NormalPath) : List Skill :=
  match root with
  | none => []
  | some root => entriesOrNone (loadProjectClaudeSkills installation root)

theorem nodup_nativeAt (root : Option NormalPath) :
    ((nativeAt installation root).map Installed.name).Nodup := by
  cases root with
  | none => exact List.nodup_nil
  | some root => exact nodup_skillsIn installation _ fun _ _ ↦ rfl

/-- The skills and the disable lists below a workspace and a project, and the skills of the project's
own where it opted in. -/
def skillScope (installation : Installation) (wsRoot projRoot nativeRoot : Option NormalPath) :
    Scope Skill where
  globals := skillsAt installation (some (globalSkillsDir installation)) .global
  workspaces := skillsAt installation (wsRoot.map skillsDir) .workspace
  projects := skillsAt installation (projRoot.map skillsDir) .project
  native := nativeAt installation nativeRoot
  wsDisables := wsRoot.bind fun root ↦ (installation.loadWorkspaceConfig root).disabledSkills
  projDisables := projRoot.bind fun root ↦ (installation.loadProjectConfig root).disabledSkills
  globals_level := level_of_mem_skillsAt _ _ _
  workspaces_level := level_of_mem_skillsAt _ _ _
  projects_level := level_of_mem_skillsAt _ _ _
  globals_nodup := nodup_skillsAt _ _ _
  workspaces_nodup := nodup_skillsAt _ _ _
  projects_nodup := nodup_skillsAt _ _ _
  native_nodup := nodup_nativeAt _ _

/-- The root whose own skills a project opted in to. -/
def nativeRootOf (installation : Installation) (projectId : Option ℕ) : Option NormalPath :=
  match installation.projectOf projectId with
  | none => none
  | some project => if project.useProjectClaudeSkills then project.root else none

def skillScopeOfProject (installation : Installation) (projectId : Option ℕ) : Scope Skill :=
  skillScope installation (rootsOf installation projectId).1 (rootsOf installation projectId).2
    (nativeRootOf installation projectId)

def skillScopeOfWorkspace (installation : Installation) (workspaceId : ℕ) : Scope Skill :=
  skillScope installation (rootOfWorkspace installation workspaceId) none none

section

variable {Item : Type} [Installed Item] (out : JsMap Name Item)

@[simp] theorem setAll_nil : setAll [] out = out := rfl

@[simp] theorem layWorkspace_none : layWorkspace none [] out = out := rfl

@[simp] theorem layProject_none : layProject none [] out = out := rfl

end

theorem resolveMcpServersForProject_eq (projectId : Option ℕ) :
    resolveMcpServersForProject installation projectId =
      (mcpScopeOfProject installation projectId).resolve.entries.map Prod.snd := by
  unfold resolveMcpServersForProject mcpScopeOfProject rootsOf
  cases installation.projectOf projectId with
  | none => rfl
  | some project =>
    cases hws : installation.workspaceRoot project <;> cases hproj : project.root <;>
      simp [Scope.resolve, mcpScope, serversAt, hws, hproj]

theorem resolveMcpServersForWorkspace_eq (workspaceId : ℕ) :
    resolveMcpServersForWorkspace installation workspaceId =
      (mcpScopeOfWorkspace installation workspaceId).resolve.entries.map Prod.snd := by
  unfold resolveMcpServersForWorkspace mcpScopeOfWorkspace rootOfWorkspace
  cases (installation.workspace workspaceId).bind WorkspaceRow.root <;> rfl

/-- Two levels above a workspace's MCP directory is the workspace. -/
theorem join_mcpDir (root : NormalPath) :
    (mcpDir root).join ["..".toList, "..".toList] = root :=
  NormalPath.join_parent_parent root (by decide) (by decide)

/-- Testing for `null` and testing for zero find the same workspace, since none has the identifier
zero. -/
theorem wsMcpDirAsync_eq (project : ProjectRow) :
    wsMcpDirAsync installation project = (installation.workspaceRoot project).map mcpDir := by
  unfold wsMcpDirAsync Installation.workspaceRoot
  cases project.workspaceId with
  | none => rfl
  | some id =>
    dsimp only
    split
    · rename_i hzero
      rw [hzero, installation.workspace_zero]
      rfl
    · rfl

/-- The asynchronous resolver returns the list of the synchronous one. -/
theorem resolveMcpServersForProjectAsync_eq (projectId : Option ℕ) :
    resolveMcpServersForProjectAsync installation projectId =
      resolveMcpServersForProject installation projectId := by
  unfold resolveMcpServersForProjectAsync resolveMcpServersForProject
  simp only [← loadMcpServersFromDir_eq_async, wsMcpDirAsync_eq]
  cases installation.projectOf projectId with
  | none => rfl
  | some project =>
    cases hws : installation.workspaceRoot project with
    | none => cases hproj : project.root <;> simp only [hws, hproj, Option.map_none]
    | some root =>
      cases hproj : project.root <;> simp only [hws, hproj, Option.map_some, join_mcpDir]

/-- The skills directories that a project's resolver lists can be listed. -/
def ProjectSkillsListable (installation : Installation) (projectId : Option ℕ) : Prop :=
  Listable installation (globalSkillsDir installation) ∧
    (∀ root ∈ (rootsOf installation projectId).1, Listable installation (skillsDir root)) ∧
    (∀ root ∈ (rootsOf installation projectId).2, Listable installation (skillsDir root)) ∧
    ∀ root ∈ nativeRootOf installation projectId,
      Listable installation (root.join [".claude".toList, "skills".toList])

/-- The same of a workspace's resolver. -/
def WorkspaceSkillsListable (installation : Installation) (workspaceId : ℕ) : Prop :=
  Listable installation (globalSkillsDir installation) ∧
    ∀ root ∈ rootOfWorkspace installation workspaceId, Listable installation (skillsDir root)

theorem loadSkillsFromDir_eq_ok_iff (dir : NormalPath)
    (level : Level) (skills : List Skill) :
    loadSkillsFromDir installation dir level = .ok skills ↔
      Listable installation dir ∧ skills = skillsAt installation (some dir) level :=
  skillsIn_eq_ok_iff installation dir _ skills

theorem loadProjectClaudeSkills_eq_ok_iff (root : NormalPath)
    (skills : List Skill) :
    loadProjectClaudeSkills installation root = .ok skills ↔
      Listable installation (root.join [".claude".toList, "skills".toList]) ∧
        skills = nativeAt installation (some root) :=
  skillsIn_eq_ok_iff installation _ _ skills

theorem resolveSkillsForWorkspace_eq_ok_iff (workspaceId : ℕ)
    (skills : List Skill) :
    resolveSkillsForWorkspace installation workspaceId = .ok skills ↔
      WorkspaceSkillsListable installation workspaceId ∧
        (skillScopeOfWorkspace installation workspaceId).resolve.entries.map Prod.snd = skills := by
  unfold resolveSkillsForWorkspace WorkspaceSkillsListable skillScopeOfWorkspace rootOfWorkspace
  cases (installation.workspace workspaceId).bind WorkspaceRow.root with
  | none =>
    simp [bind_eq_ok_iff, loadSkillsFromDir_eq_ok_iff, pure, Except.pure, Scope.resolve, skillScope,
      skillsAt, nativeAt]
  | some root =>
    simp [bind_eq_ok_iff, loadSkillsFromDir_eq_ok_iff, pure, Except.pure, Scope.resolve, skillScope,
      skillsAt, nativeAt, and_assoc]

theorem resolveSkillsForProject_eq_ok_iff (projectId : Option ℕ)
    (skills : List Skill) :
    resolveSkillsForProject installation projectId = .ok skills ↔
      ProjectSkillsListable installation projectId ∧
        (skillScopeOfProject installation projectId).resolve.entries.map Prod.snd = skills := by
  unfold resolveSkillsForProject ProjectSkillsListable skillScopeOfProject rootsOf nativeRootOf
  cases installation.projectOf projectId with
  | none =>
    simp [bind_eq_ok_iff, loadSkillsFromDir_eq_ok_iff, pure, Except.pure, Scope.resolve, skillScope,
      skillsAt, nativeAt]
  | some project =>
    cases hws : installation.workspaceRoot project <;> cases hproj : project.root <;>
      cases hnative : project.useProjectClaudeSkills <;>
      simp [bind_eq_ok_iff, loadSkillsFromDir_eq_ok_iff, loadProjectClaudeSkills_eq_ok_iff, pure,
        Except.pure, Scope.resolve, skillScope, skillsAt, nativeAt, and_assoc, hws, hproj,
        hnative]

/-- The five resolvers return what should be visible, and the asynchronous one the list of its
sibling. -/
structure DisablingMeansAbsence (installation : Installation) (projectId : Option ℕ)
    (workspaceId : ℕ) : Prop where
  mcpForProject : {server | server ∈ resolveMcpServersForProject installation projectId} =
    (mcpScopeOfProject installation projectId).visible
  mcpForProjectAsync : {server | server ∈ resolveMcpServersForProjectAsync installation projectId} =
    (mcpScopeOfProject installation projectId).visible
  mcpForWorkspace : {server | server ∈ resolveMcpServersForWorkspace installation workspaceId} =
    (mcpScopeOfWorkspace installation workspaceId).visible
  skillsForProject : ∃ skills, resolveSkillsForProject installation projectId = .ok skills ∧
    {skill | skill ∈ skills} = (skillScopeOfProject installation projectId).visible
  skillsForWorkspace : ∃ skills, resolveSkillsForWorkspace installation workspaceId = .ok skills ∧
    {skill | skill ∈ skills} = (skillScopeOfWorkspace installation workspaceId).visible
  sync_eq_async : resolveMcpServersForProject installation projectId =
    resolveMcpServersForProjectAsync installation projectId

theorem mcpForProject_iff (projectId : Option ℕ) :
    {server | server ∈ resolveMcpServersForProject installation projectId} =
        (mcpScopeOfProject installation projectId).visible ↔
      (mcpScopeOfProject installation projectId).CoveredAgain := by
  rw [resolveMcpServersForProject_eq, Scope.values_resolve_eq_visible_iff]

theorem mcpForWorkspace (workspaceId : ℕ) :
    {server | server ∈ resolveMcpServersForWorkspace installation workspaceId} =
      (mcpScopeOfWorkspace installation workspaceId).visible := by
  rw [resolveMcpServersForWorkspace_eq, Scope.values_resolve_eq_visible_iff]
  exact Scope.coveredAgain_of_projDisables_eq_none _ rfl

theorem skillsForProject_iff (projectId : Option ℕ) :
    (∃ skills, resolveSkillsForProject installation projectId = .ok skills ∧
        {skill | skill ∈ skills} = (skillScopeOfProject installation projectId).visible) ↔
      ProjectSkillsListable installation projectId ∧
        (skillScopeOfProject installation projectId).CoveredAgain := by
  simp only [resolveSkillsForProject_eq_ok_iff, and_assoc, exists_and_left, exists_eq_left',
    Scope.values_resolve_eq_visible_iff]

theorem skillsForWorkspace_iff (workspaceId : ℕ) :
    (∃ skills, resolveSkillsForWorkspace installation workspaceId = .ok skills ∧
        {skill | skill ∈ skills} = (skillScopeOfWorkspace installation workspaceId).visible) ↔
      WorkspaceSkillsListable installation workspaceId := by
  simp only [resolveSkillsForWorkspace_eq_ok_iff, and_assoc, exists_and_left, exists_eq_left',
    Scope.values_resolve_eq_visible_iff]
  exact and_iff_left (Scope.coveredAgain_of_projDisables_eq_none _ rfl)

/-- Disabling means absence exactly where no enabled global entry is lost: where the project's config
disables a workspace entry that the workspace's own config keeps, a global entry of its name is
covered by the project or disabled too. The skills directories have to be listable besides. -/
theorem disablingMeansAbsence_iff (installation : Installation) (projectId : Option ℕ)
    (workspaceId : ℕ) :
    DisablingMeansAbsence installation projectId workspaceId ↔
      (mcpScopeOfProject installation projectId).CoveredAgain ∧
        (skillScopeOfProject installation projectId).CoveredAgain ∧
        ProjectSkillsListable installation projectId ∧
        WorkspaceSkillsListable installation workspaceId := by
  constructor
  · intro h
    have hskills := (skillsForProject_iff installation projectId).mp h.skillsForProject
    exact ⟨(mcpForProject_iff installation projectId).mp h.mcpForProject, hskills.2, hskills.1,
      (skillsForWorkspace_iff installation workspaceId).mp h.skillsForWorkspace⟩
  · rintro ⟨hmcp, hskills, hproject, hworkspace⟩
    have hsync := (mcpForProject_iff installation projectId).mpr hmcp
    exact {
      mcpForProject := hsync
      mcpForProjectAsync := by rw [resolveMcpServersForProjectAsync_eq, hsync]
      mcpForWorkspace := mcpForWorkspace installation workspaceId
      skillsForProject := (skillsForProject_iff installation projectId).mpr ⟨hproject, hskills⟩
      skillsForWorkspace := (skillsForWorkspace_iff installation workspaceId).mpr hworkspace
      sync_eq_async := (resolveMcpServersForProjectAsync_eq installation projectId).symm }

/-- A server `a` in the global and in the workspace's directory, and a project in the workspace
whose config disables the workspace's. -/
def sharedName : Installation where
  flockctlHome := .ofText "/home".toList
  directory := fun dir ↦
    if dir = .ofText "/home/mcp".toList ∨ dir = .ofText "/ws/.flockctl/mcp".toList then
      some ⟨JsMap.empty.set "a.json".toList (.file (some (.object []))), true⟩
    else none
  workspaceConfigAt := fun _ ↦ ⟨none, none⟩
  projectConfigAt := fun _ ↦ ⟨none, some [⟨"a".toList, .workspace⟩]⟩
  workspace := fun id ↦ if id = 1 then some ⟨"/ws".toList⟩ else none
  project := fun id ↦ if id = 1 then some ⟨some 1, some "/ws/p".toList, false⟩ else none
  workspace_zero := rfl

/-- The project sees no server `a` at all, though nothing disables the global one. -/
theorem not_disablingMeansAbsence : ¬DisablingMeansAbsence sharedName (some 1) 1 := by
  intro h
  have hcovered := (mcpForProject_iff sharedName (some 1)).mp h.mcpForProject
  have hglobals : (mcpScopeOfProject sharedName (some 1)).globals =
      [⟨"a".toList, .global, .object []⟩] := by rfl
  have hworkspaces : (mcpScopeOfProject sharedName (some 1)).workspaces =
      [⟨"a".toList, .workspace, .object []⟩] := by rfl
  have hprojects : (mcpScopeOfProject sharedName (some 1)).projects = [] := by rfl
  have hproj : (mcpScopeOfProject sharedName (some 1)).projDisables =
      some [⟨"a".toList, .workspace⟩] := by rfl
  have hws : (mcpScopeOfProject sharedName (some 1)).wsDisables = none := by rfl
  obtain ⟨cover, hcover | hcover, -⟩ := hcovered ⟨"a".toList, .global, .object []⟩
    (by rw [hglobals]; exact List.mem_singleton_self _) ⟨"a".toList, .workspace, .object []⟩
    (by rw [hworkspaces]; exact List.mem_singleton_self _) rfl
    (by
      rw [Scope.disabled_iff_of_ne_project _ (by decide), names_iff, names_iff, hws, hproj]
      simp [Installed.name, Installed.level])
    (by rw [names_iff, hws]; simp)
    (by rw [names_iff, hproj]; simp [Installed.name, Installed.level])
  · cases hcover
  · rw [hprojects] at hcover
    cases hcover.1

end Flockctl.Extensions
