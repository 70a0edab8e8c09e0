import Flockctl.Extensions.Levels

/-!
# MCP servers

The servers of a level come from the combined `mcp.json` of its directory and then from one file a
server, over which a local override may be laid. The resolvers fold the levels into one map.
-/

namespace Flockctl.Extensions

open Collections Encoding Paths

structure McpServer where
  name : Name
  level : Level
  config : Json

instance : Installed McpServer := ⟨McpServer.name, McpServer.level⟩

/-! ## Loading a directory -/

/-- `mergeLocalOverride(base, override)`; reading `env` from `null` throws. -/
def mergeLocalOverride (base : Json) (override : Json) : Option Json :=
  let step : Option (JsMap Name Json) → Name × Json → Option (JsMap Name Json)
    | none, _ => none
    | some merged, (k, v) =>
        if k = "env".toList ∧ v.isObject = true ∧ v.isArray = false then
          match base with
          | .null => none
          | base =>
              let env := Json.spread
                (Json.orElse (base.property "env".toList) (.object [])).properties v.properties
              some (merged.set "env".toList (.object env.entries))
        else some (Json.assign merged k v)
  (override.properties.entries.foldl step (some base.properties)).map fun merged ↦
    .object merged.entries

/-- The servers of the combined file. -/
def combinedServers (directory : Directory) (level : Level) : List McpServer :=
  if directory.found "mcp.json".toList then
    match directory.parse "mcp.json".toList with
    | none => []
    | some .null => []
    | some parsed =>
        let mcpServers := Json.orElse (parsed.property "mcpServers".toList) parsed
        if mcpServers.isObject then
          mcpServers.properties.entries.filterMap fun entry ↦
            if entry.2.isObject then some ⟨entry.1, level, entry.2⟩ else none
        else []
  else []

def localOverrideName (name : Name) : Name := name ++ ".local.json".toList

/-- Whether a directory entry is the file of one server. -/
def isServerFile (entry : Name × Node) : Bool :=
  entry.2.isFile && ".json".toList.isSuffixOf entry.1 &&
    (entry.1 ≠ "mcp.json".toList && entry.1 ≠ "config.json".toList) &&
    !".local.json".toList.isSuffixOf entry.1

/-- `entry.name.replace(/\.json$/, "")`, of a name that ends so. -/
def serverName (file : Name) : Name := file.take (file.length - ".json".length)

/-- The server of one file, with its local override; `none` where the file does not parse. -/
def readServer (directory : Directory) (level : Level) (file : Name) : Option McpServer :=
  let name := serverName file
  match directory.parse file with
  | none => none
  | some config =>
      if directory.found (localOverrideName name) then
        match directory.parse (localOverrideName name) with
        | none => some ⟨name, level, config⟩
        | some override =>
            if override.isObject then
              some ⟨name, level, (mergeLocalOverride config override).getD config⟩
            else some ⟨name, level, config⟩
      else some ⟨name, level, config⟩

/-- `loadMcpServersFromDir(dir, level)`. -/
def loadMcpServersFromDir (installation : Installation) (dir : NormalPath) (level : Level) :
    List McpServer :=
  match installation.directory dir with
  | none => []
  | some directory =>
      let servers := combinedServers directory level
      match directory.readdir with
      | none => servers
      | some entries =>
          (entries.filter isServerFile).foldl (fun servers entry ↦
            if servers.any (fun s ↦ s.name = serverName entry.1) then servers
            else match readServer directory level entry.1 with
              | none => servers
              | some server => servers ++ [server]) servers

/-- `loadMcpServersFromDirAsync(dir, level)`: all files are read before a server is added. -/
def loadMcpServersFromDirAsync (installation : Installation) (dir : NormalPath) (level : Level) :
    List McpServer :=
  match installation.directory dir with
  | none => []
  | some directory =>
      let servers := combinedServers directory level
      match directory.readdir with
      | none => servers
      | some entries =>
          let results := (entries.filter isServerFile).map fun entry ↦
            if servers.any (fun s ↦ s.name = serverName entry.1) then none
            else readServer directory level entry.1
          servers ++ results.filterMap id

/-! ## Resolving -/

def globalMcpDir (installation : Installation) : NormalPath :=
  installation.flockctlHome.join ["mcp".toList]

def mcpDir (root : NormalPath) : NormalPath := root.join [".flockctl".toList, "mcp".toList]

/-- `resolveMcpServersForProject(projectId)`. -/
def resolveMcpServersForProject (installation : Installation) (projectId : Option ℕ) :
    List McpServer :=
  let out := setAll (loadMcpServersFromDir installation (globalMcpDir installation) .global)
    JsMap.empty
  match installation.projectOf projectId with
  | none => out.entries.map Prod.snd
  | some project =>
      let out := match installation.workspaceRoot project with
        | none => out
        | some root =>
            layWorkspace (installation.loadWorkspaceConfig root).disabledMcpServers
              (loadMcpServersFromDir installation (mcpDir root) .workspace) out
      let out := match project.root with
        | none => out
        | some root =>
            layProject (installation.loadProjectConfig root).disabledMcpServers
              (loadMcpServersFromDir installation (mcpDir root) .project) out
      out.entries.map Prod.snd

/-- The MCP directory of the workspace as the asynchronous resolver finds it: it tests the
identifier for `null` and not for zero. -/
def wsMcpDirAsync (installation : Installation) (project : ProjectRow) : Option NormalPath :=
  match project.workspaceId with
  | none => none
  | some id => ((installation.workspace id).bind WorkspaceRow.root).map mcpDir

/-- `resolveMcpServersForProjectAsync(projectId)`. The workspace's config is loaded from two levels
above its MCP directory. -/
def resolveMcpServersForProjectAsync (installation : Installation) (projectId : Option ℕ) :
    List McpServer :=
  match installation.projectOf projectId with
  | none =>
      (setAll (loadMcpServersFromDirAsync installation (globalMcpDir installation) .global)
        JsMap.empty).entries.map Prod.snd
  | some project =>
      let wsMcpDir := wsMcpDirAsync installation project
      let wsConfigPath := wsMcpDir.map fun dir ↦ dir.join ["..".toList, "..".toList]
      let globalServers :=
        loadMcpServersFromDirAsync installation (globalMcpDir installation) .global
      let wsServers := match wsMcpDir with
        | some dir => loadMcpServersFromDirAsync installation dir .workspace
        | none => []
      let projServers := match project.root with
        | some root => loadMcpServersFromDirAsync installation (mcpDir root) .project
        | none => []
      let out := setAll globalServers JsMap.empty
      let out := match wsConfigPath with
        | none => out
        | some path =>
            layWorkspace (installation.loadWorkspaceConfig path).disabledMcpServers wsServers out
      let out := match project.root with
        | none => out
        | some root =>
            layProject (installation.loadProjectConfig root).disabledMcpServers projServers out
      out.entries.map Prod.snd

/-- `resolveMcpServersForWorkspace(workspaceId)`. -/
def resolveMcpServersForWorkspace (installation : Installation) (workspaceId : ℕ) :
    List McpServer :=
  let out := setAll (loadMcpServersFromDir installation (globalMcpDir installation) .global)
    JsMap.empty
  match (installation.workspace workspaceId).bind WorkspaceRow.root with
  | none => out.entries.map Prod.snd
  | some root =>
      (layWorkspace (installation.loadWorkspaceConfig root).disabledMcpServers
        (loadMcpServersFromDir installation (mcpDir root) .workspace) out).entries.map Prod.snd

end Flockctl.Extensions

/-!
# What the loaders return

A loader returns entries of its level with distinct names, whatever the directory holds. The
asynchronous loader of servers returns the list of the synchronous one, because two files of a
directory are never files of one server. A skills directory is loaded exactly where it can be
listed or does not exist.
-/

namespace Flockctl.Extensions

open Collections Paths

/-! ## The servers of a directory -/

theorem level_of_mem_combinedServers {directory : Directory} {level : Level} {server : McpServer}
    (h : server ∈ combinedServers directory level) : server.level = level := by
  unfold combinedServers at h
  split at h
  · split at h
    · cases h
    · cases h
    · dsimp only at h
      split at h
      · obtain ⟨entry, -, hentry⟩ := List.mem_filterMap.mp h
        split at hentry
        · cases hentry
          rfl
        · cases hentry
      · cases h
  · cases h

theorem nodup_filterMap_of_keys {Value Result : Type} (name : Result → Name)
    (f : Name × Value → Option Result) (hf : ∀ entry result, f entry = some result →
      name result = entry.1) {entries : List (Name × Value)}
    (hnodup : (entries.map Prod.fst).Nodup) : ((entries.filterMap f).map name).Nodup := by
  induction entries with
  | nil => exact List.nodup_nil
  | cons entry rest ih =>
    rw [List.map_cons, List.nodup_cons] at hnodup
    cases hentry : f entry with
    | none =>
      rw [List.filterMap_cons_none hentry]
      exact ih hnodup.2
    | some result =>
      rw [List.filterMap_cons_some hentry, List.map_cons, List.nodup_cons]
      refine ⟨fun hmem ↦ hnodup.1 ?_, ih hnodup.2⟩
      obtain ⟨other, hother, hname⟩ := List.mem_map.mp hmem
      obtain ⟨source, hsource, hresult⟩ := List.mem_filterMap.mp hother
      rw [← hf entry result hentry, ← hname, hf source other hresult]
      exact List.mem_map_of_mem hsource

theorem nodup_combinedServers (directory : Directory) (level : Level) :
    ((combinedServers directory level).map McpServer.name).Nodup := by
  unfold combinedServers
  split
  · split
    · exact List.nodup_nil
    · exact List.nodup_nil
    · dsimp only
      split
      · refine nodup_filterMap_of_keys McpServer.name _ (fun entry result hentry ↦ ?_)
          (JsMap.nodup _)
        split at hentry
        · cases hentry
          rfl
        · cases hentry
      · exact List.nodup_nil
  · exact List.nodup_nil

theorem readServer_spec {directory : Directory} {level : Level} {file : Name} {server : McpServer}
    (h : readServer directory level file = some server) :
    server.name = serverName file ∧ server.level = level := by
  unfold readServer at h
  dsimp only at h
  split at h
  · cases h
  · split at h
    · split at h
      · cases h
        exact ⟨rfl, rfl⟩
      · split at h
        · cases h
          exact ⟨rfl, rfl⟩
        · cases h
          exact ⟨rfl, rfl⟩
    · cases h
      exact ⟨rfl, rfl⟩

/-- The name of a server file determines the file. -/
theorem serverName_append {entry : Name × Node} (h : isServerFile entry = true) :
    serverName entry.1 ++ ".json".toList = entry.1 := by
  simp only [isServerFile, Bool.and_eq_true] at h
  obtain ⟨base, hbase⟩ := List.isSuffixOf_iff_suffix.mp h.1.1.2
  rw [serverName, ← hbase, List.length_append]
  have hlength : base.length + ".json".toList.length - ".json".length = base.length := by
    rw [String.length_toList]
    omega
  rw [hlength, List.take_left]

/-- Distinct files of a directory are the files of distinct servers. -/
theorem nodup_serverNames (directory : Directory) :
    ((directory.nodes.entries.filter isServerFile).map fun entry ↦ serverName entry.1).Nodup := by
  have hfiles : ((directory.nodes.entries.filter isServerFile).map Prod.fst).Nodup :=
    directory.nodes.nodup.sublist (List.filter_sublist.map Prod.fst)
  refine List.Nodup.of_map (fun name : Name ↦ name ++ ".json".toList) ?_
  rw [List.map_map]
  have hnames : (directory.nodes.entries.filter isServerFile).map
      ((fun name : Name ↦ name ++ ".json".toList) ∘ fun entry ↦ serverName entry.1) =
      (directory.nodes.entries.filter isServerFile).map Prod.fst := by
    apply List.map_congr_left
    intro entry hentry
    exact serverName_append (List.mem_filter.mp hentry).2
  rw [hnames]
  exact hfiles

/-! ## One loader and the other -/

/-- One turn of the synchronous loop. -/
def addServer (directory : Directory) (level : Level) (servers : List McpServer)
    (entry : Name × Node) : List McpServer :=
  if servers.any (fun s ↦ s.name = serverName entry.1) then servers
  else match readServer directory level entry.1 with
    | none => servers
    | some server => servers ++ [server]

/-- One read of the asynchronous loader. -/
def readUnlessPresent (directory : Directory) (level : Level) (servers : List McpServer)
    (entry : Name × Node) : Option McpServer :=
  if servers.any (fun s ↦ s.name = serverName entry.1) then none
  else readServer directory level entry.1

theorem addServer_eq (directory : Directory) (level : Level) (servers : List McpServer)
    (entry : Name × Node) : addServer directory level servers entry =
      servers ++ (readUnlessPresent directory level servers entry).toList := by
  unfold addServer readUnlessPresent
  split
  · simp
  · cases readServer directory level entry.1 <;> simp

theorem name_of_readUnlessPresent {directory : Directory} {level : Level}
    {servers : List McpServer} {entry : Name × Node} {server : McpServer}
    (h : readUnlessPresent directory level servers entry = some server) :
    server.name = serverName entry.1 ∧ server.level = level := by
  unfold readUnlessPresent at h
  split at h
  · cases h
  · exact readServer_spec h

/-- Adding the servers one by one is adding them all at once, because no two files are the files of
one server: what was added before is never the server of a later file. -/
theorem foldl_addServer (directory : Directory) (level : Level) (combined : List McpServer)
    {files : List (Name × Node)} (hnodup : (files.map fun entry ↦ serverName entry.1).Nodup)
    {servers : List McpServer} (hservers : ∀ entry ∈ files,
      servers.any (fun s ↦ s.name = serverName entry.1) =
        combined.any fun s ↦ s.name = serverName entry.1) :
    files.foldl (addServer directory level) servers =
      servers ++ files.filterMap (readUnlessPresent directory level combined) := by
  induction files generalizing servers with
  | nil => simp
  | cons entry rest ih =>
    rw [List.map_cons, List.nodup_cons] at hnodup
    have hread : readUnlessPresent directory level servers entry =
        readUnlessPresent directory level combined entry := by
      rw [readUnlessPresent, readUnlessPresent, hservers entry List.mem_cons_self]
    have hlater : ∀ later ∈ rest,
        (servers ++ (readUnlessPresent directory level combined entry).toList).any
            (fun s ↦ s.name = serverName later.1) =
          combined.any fun s ↦ s.name = serverName later.1 := by
      intro later hlater
      rw [List.any_append, hservers later (List.mem_cons_of_mem entry hlater)]
      have hadded : ((readUnlessPresent directory level combined entry).toList.any
          fun s ↦ s.name = serverName later.1) = false := by
        rw [List.any_eq_false]
        intro server hserver hname
        rw [Option.mem_toList] at hserver
        rw [decide_eq_true_eq, (name_of_readUnlessPresent hserver).1] at hname
        refine hnodup.1 ?_
        rw [hname]
        exact List.mem_map_of_mem (f := fun entry : Name × Node ↦ serverName entry.1) hlater
      rw [hadded, Bool.or_false]
    rw [List.foldl_cons, addServer_eq, hread, ih hnodup.2 hlater, List.append_assoc,
      List.filterMap_cons]
    cases readUnlessPresent directory level combined entry <;> rfl

variable (installation : Installation)

/-- Both loaders return the same list. -/
theorem loadMcpServersFromDir_eq_async (dir : NormalPath)
    (level : Level) : loadMcpServersFromDir installation dir level =
      loadMcpServersFromDirAsync installation dir level := by
  unfold loadMcpServersFromDir loadMcpServersFromDirAsync
  cases installation.directory dir with
  | none => rfl
  | some directory =>
    dsimp only [Directory.readdir]
    cases directory.listable with
    | false => rfl
    | true =>
      simp only [if_true]
      rw [List.filterMap_map]
      exact foldl_addServer directory level (combinedServers directory level)
        (nodup_serverNames directory) fun _ _ ↦ rfl

theorem loadMcpServersFromDir_eq (dir : NormalPath) (level : Level)
    {directory : Directory} (hdirectory : installation.directory dir = some directory) :
    loadMcpServersFromDir installation dir level =
      combinedServers directory level ++ if directory.listable = true then
        (directory.nodes.entries.filter isServerFile).filterMap
          (readUnlessPresent directory level (combinedServers directory level)) else [] := by
  rw [loadMcpServersFromDir_eq_async, loadMcpServersFromDirAsync, hdirectory]
  dsimp only [Directory.readdir]
  cases directory.listable with
  | false => simp
  | true =>
    simp only [if_true]
    rw [List.filterMap_map]
    rfl

theorem level_of_mem_loadMcpServersFromDir (dir : NormalPath)
    (level : Level) : ∀ server ∈ loadMcpServersFromDir installation dir level,
      Installed.level server = level := by
  intro server hserver
  cases hdirectory : installation.directory dir with
  | none =>
    rw [loadMcpServersFromDir, hdirectory] at hserver
    cases hserver
  | some directory =>
    rw [loadMcpServersFromDir_eq installation dir level hdirectory, List.mem_append] at hserver
    rcases hserver with hcombined | hfile
    · exact level_of_mem_combinedServers hcombined
    · split at hfile
      · obtain ⟨entry, -, hentry⟩ := List.mem_filterMap.mp hfile
        exact (name_of_readUnlessPresent hentry).2
      · cases hfile

/-- A directory yields one server a name. -/
theorem nodup_loadMcpServersFromDir (dir : NormalPath)
    (level : Level) :
    ((loadMcpServersFromDir installation dir level).map Installed.name).Nodup := by
  cases hdirectory : installation.directory dir with
  | none =>
    rw [loadMcpServersFromDir, hdirectory]
    exact List.nodup_nil
  | some directory =>
    rw [loadMcpServersFromDir_eq installation dir level hdirectory, List.map_append,
      List.nodup_append]
    refine ⟨nodup_combinedServers directory level, ?_, ?_⟩
    · split
      · refine List.Nodup.sublist ?_ (nodup_serverNames directory)
        induction directory.nodes.entries.filter isServerFile with
        | nil => exact List.Sublist.refl []
        | cons entry rest ih =>
          rw [List.filterMap_cons]
          cases hentry : readUnlessPresent directory level (combinedServers directory level)
            entry with
          | none => exact ih.cons _
          | some server =>
            have hname : Installed.name server = serverName entry.1 :=
              (name_of_readUnlessPresent hentry).1
            simp only [List.map_cons, hname]
            exact ih.cons_cons _
      · exact List.nodup_nil
    · intro name hname other hother hsame
      subst hsame
      obtain ⟨present, hpresent, hpresentName⟩ := List.mem_map.mp hname
      obtain ⟨server, hserver, hserverName⟩ := List.mem_map.mp hother
      split at hserver
      · obtain ⟨entry, -, hentry⟩ := List.mem_filterMap.mp hserver
        have hfree : ¬(combinedServers directory level).any
            (fun s ↦ s.name = serverName entry.1) = true := by
          intro hany
          rw [readUnlessPresent, if_pos hany] at hentry
          cases hentry
        refine hfree (List.any_eq_true.mpr ⟨present, hpresent, decide_eq_true ?_⟩)
        calc
          present.name = Installed.name server := hpresentName.trans hserverName.symm
          _ = serverName entry.1 := (name_of_readUnlessPresent hentry).1
      · cases hserver

/-! ## The skills of a directory -/

/-- `readdirSync(dir)` does not throw, where it is called. -/
def Listable (installation : Installation) (dir : NormalPath) : Prop :=
  ∀ directory, installation.directory dir = some directory → directory.listable = true

theorem skillsIn_eq_ok_iff (dir : NormalPath)
    (skill : Name → NormalPath → Skill) (skills : List Skill) :
    skillsIn installation dir skill = .ok skills ↔
      Listable installation dir ∧ skills = entriesOrNone (skillsIn installation dir skill) := by
  unfold skillsIn Listable
  cases installation.directory dir with
  | none => simp [entriesOrNone, @eq_comm _ [] skills]
  | some directory =>
    cases hlistable : directory.listable with
    | false => simp [Directory.readdir, hlistable]
    | true => simpa [Directory.readdir, hlistable, entriesOrNone] using eq_comm

/-- What is read from a directory entry: a skill of the entry's name. -/
theorem entriesOrNone_skillsIn_eq (dir : NormalPath)
    (skill : Name → NormalPath → Skill) :
    entriesOrNone (skillsIn installation dir skill) = [] ∨
      ∃ directory : Directory, entriesOrNone (skillsIn installation dir skill) =
        directory.nodes.entries.filterMap fun entry ↦
          match entry.2 with
          | .directory true => some (skill entry.1 (dir.join [entry.1]))
          | _ => none := by
  unfold skillsIn
  cases installation.directory dir with
  | none => exact .inl rfl
  | some directory =>
    cases hlistable : directory.listable with
    | false => simp [Directory.readdir, hlistable, entriesOrNone]
    | true =>
      refine .inr ⟨directory, ?_⟩
      simp only [Directory.readdir, hlistable, if_true]
      rfl

theorem level_of_mem_skillsIn (dir : NormalPath)
    {skill : Name → NormalPath → Skill} {level : Level}
    (hskill : ∀ name path, (skill name path).level = level) :
    ∀ s ∈ entriesOrNone (skillsIn installation dir skill), Installed.level s = level := by
  intro s hs
  rcases entriesOrNone_skillsIn_eq installation dir skill with hnone | ⟨directory, heq⟩
  · rw [hnone] at hs
    cases hs
  · rw [heq] at hs
    obtain ⟨entry, -, hentry⟩ := List.mem_filterMap.mp hs
    split at hentry
    · cases hentry
      exact hskill _ _
    · cases hentry

theorem nodup_skillsIn (dir : NormalPath)
    {skill : Name → NormalPath → Skill} (hskill : ∀ name path, (skill name path).name = name) :
    ((entriesOrNone (skillsIn installation dir skill)).map Installed.name).Nodup := by
  rcases entriesOrNone_skillsIn_eq installation dir skill with hnone | ⟨directory, heq⟩
  · rw [hnone]
    exact List.nodup_nil
  · rw [heq]
    refine nodup_filterMap_of_keys Skill.name _ (fun entry result hentry ↦ ?_)
      directory.nodes.nodup
    split at hentry
    · cases hentry
      exact hskill _ _
    · cases hentry

end Flockctl.Extensions
