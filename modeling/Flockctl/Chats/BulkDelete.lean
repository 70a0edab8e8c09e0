import Flockctl.Chats.Executor

/-!
# Bulk deletion against single deletion

The bulk request has the effect of the single requests, and leaves nothing of the chats it deletes,
exactly when there is nothing left of their worktrees, their files can be unlinked, and each of their
live sessions is the one the executor keeps.
-/

namespace Flockctl.Chats

open Collections Git Worktrees

/-- The session runs, or the turn has claimed the chat and sets its session up. -/
def Turn.IsLive (turn : Turn) : Prop :=
  turn.phase = .running ∨ turn.phase = .setup ∧ turn.endpoint ≠ .resume

/-- Nothing is left of a deleted chat. -/
structure Deleted (s next : ChatStore) (id : ChatId) (chat : StoredChat) : Prop where
  files : ∀ attachment ∈ s.listAttachmentsForChat id, attachment.path ∉ next.files
  worktree : ∀ projectPath path branch project,
    s.worktree? chat = some (projectPath, path, branch) →
      next.projects.get projectPath = some project →
        project.repository.directories.get path = none ∧
          project.repository.branches.get branch = none
  sessions : ∀ session turn, next.daemon.turns.get session = some turn → turn.chat = id →
    turn.IsLive → turn.aborted = true

/-- The bulk request does what the single ones do, and leaves nothing of what it deletes. -/
structure MirrorsSingle (faults : DeleteFaults) (s : ChatStore) (request : ChatIds) : Prop where
  same : (s.batchDelete faults request).1 = s.deleteEach faults request.ids
  deleted : ∀ id ∈ request.ids, ∀ chat, s.chats.get id = some chat →
    (s.batchDelete faults request).1.chats.get id = none →
      Deleted s (s.batchDelete faults request).1 id chat
  missing : ∀ id, id ∈ (s.batchDelete faults request).2.missing ↔
    id ∈ request.ids ∧ s.chats.get id = none

/-- Neither the directory nor the branch of the worktree is there, and the cleanup and the removal
have no registration to prune. -/
structure NothingLeft (project : Project) (path branch : String) (first later : Faults) :
    Prop where
  directory : project.repository.directories.get path = none
  branch : project.repository.branches.get branch = none
  pruned : project.isGitWorkTree = true → first.prune = false ∨ later.prune = false →
    ∀ other worktree, project.repository.worktrees.get other = some worktree →
      project.repository.isStale other worktree = false

structure Fits (faults : DeleteFaults) (s : ChatStore) (id : ChatId) (chat : StoredChat) : Prop where
  unlinked : ∀ attachment ∈ s.listAttachmentsForChat id, attachment.path ∈ s.files →
    faults.unlink attachment.path = false
  sessions : ∀ session turn, s.daemon.turns.get session = some turn → turn.chat = id →
    turn.IsLive → turn.aborted = true ∨ s.daemon.executor.sessions.get id = some session
  worktree : ∀ projectPath path branch project,
    s.worktree? chat = some (projectPath, path, branch) →
      s.projects.get projectPath = some project →
        NothingLeft project path branch (faults.cleanup id) (faults.removal id)

/-! ## Deleting many -/

section

variable {faults : DeleteFaults} {s : ChatStore} {id : ChatId}

theorem deleteAttachmentFiles_eq_filter (unlinkFails : String → Bool) (rows : List AttachmentRow)
    (files : List String) : deleteAttachmentFiles unlinkFails rows files =
      files.filter fun file ↦ rows.all fun row ↦ unlinkFails row.path || file ≠ row.path := by
  induction rows generalizing files with
  | nil => simp [deleteAttachmentFiles]
  | cons row rows ih =>
    rw [deleteAttachmentFiles, List.foldl_cons]
    refine (ih _).trans ?_
    cases hfails : unlinkFails row.path with
    | true => simp [hfails]
    | false => simp [hfails, List.filter_filter, Bool.and_comm]

theorem cancelIfRunning_eq (daemon : ChatDaemon) (id : ChatId) :
    cancelIfRunning daemon id =
      { daemon with
        turns := daemon.turns.mapWithKey fun session turn ↦
          if daemon.executor.sessions.get id = some session then { turn with aborted := true }
          else turn } := by
  unfold cancelIfRunning ChatDaemon.cancel ChatExecutor.isRunning
  cases hsession : daemon.executor.sessions.get id with
  | none =>
    rw [JsMap.mapWithKey_eq_self fun session turn _ ↦ if_neg nofun]
    dsimp only
    split <;> rfl
  | some kept =>
    have hhas : daemon.executor.sessions.has id = true := by simp [JsMap.has, hsession]
    rw [hhas, Bool.true_or, if_pos rfl]
    dsimp only [ChatDaemon.abort, JsMap.modify]
    congr 1
    congr 1
    funext session turn
    simp only [Option.some.injEq, eq_comm]

/-- Cancelling chats aborts the sessions the executor keeps for them. -/
theorem cancelEach_eq (daemon : ChatDaemon) (ids : List ChatId) :
    ids.foldl cancelIfRunning daemon =
      { daemon with
        turns := daemon.turns.mapWithKey fun session turn ↦
          if ∃ chat ∈ ids, daemon.executor.sessions.get chat = some session then
            { turn with aborted := true }
          else turn } := by
  induction ids generalizing daemon with
  | nil =>
    rw [JsMap.mapWithKey_eq_self fun session turn _ ↦ if_neg (by simp)]
    rfl
  | cons id ids ih =>
    rw [List.foldl_cons, ih, cancelIfRunning_eq, JsMap.mapWithKey_mapWithKey]
    congr 2
    funext session turn
    by_cases hid : daemon.executor.sessions.get id = some session
    · simp [hid]
    · simp [hid]

/-- What is deleted depends on which chats are named only. -/
theorem removeChats_congr {ids others : List ChatId} (h : ∀ id, id ∈ ids ↔ id ∈ others) :
    s.removeChats faults ids = s.removeChats faults others := by
  apply ChatStore.ext
  · simp only [ChatStore.removeChats, JsMap.deleteAll, h]
  · simp only [ChatStore.removeChats, h]
  · simp only [ChatStore.removeChats, h]
  · rfl
  · rfl
  · simp only [ChatStore.removeChats, cancelEach_eq, h]

theorem removeChats_nil : s.removeChats faults [] = s := by
  apply ChatStore.ext
  · change s.chats.filter (fun other _ ↦ decide (other ∉ [])) = s.chats
    exact JsMap.filter_eq_self (by simp)
  · change s.attachments.filter (fun _ attachment ↦ decide (attachment.chat ∉ [])) = s.attachments
    exact JsMap.filter_eq_self (by simp)
  · simp [ChatStore.removeChats, deleteAttachmentFiles]
  · rfl
  · rfl
  · rfl

theorem removeChats_cons (ids : List ChatId) :
    s.removeChats faults (id :: ids) = (s.removeChat faults id).removeChats faults ids := by
  apply ChatStore.ext
  · exact JsMap.deleteAll_cons _ _ _
  · apply JsMap.ext_entries
    simp [ChatStore.removeChats, ChatStore.removeChat, JsMap.filter, List.filter_filter,
      Bool.and_comm]
  · simp only [ChatStore.removeChats, ChatStore.removeChat, ChatStore.listAttachmentsForChat,
      deleteAttachmentFiles_eq_filter, List.filter_filter]
    refine List.filter_congr fun file _ ↦ ?_
    rw [Bool.eq_iff_iff]
    simp only [List.all_eq_true, List.mem_filter, List.mem_map, Bool.and_eq_true,
      decide_eq_true_eq, List.mem_cons, JsMap.filter]
    constructor
    · intro h
      refine ⟨?_, fun row hrow ↦ h row ⟨hrow.1, Or.inl hrow.2⟩⟩
      rintro row ⟨⟨entry, ⟨hentry, -⟩, rfl⟩, hmem⟩
      exact h entry.2 ⟨⟨entry, hentry, rfl⟩, Or.inr hmem⟩
    · rintro ⟨hrest, hfirst⟩ row ⟨⟨entry, hentry, rfl⟩, hmem⟩
      by_cases hid : entry.2.chat = id
      · exact hfirst entry.2 ⟨⟨entry, hentry, rfl⟩, hid⟩
      · exact hrest entry.2 ⟨⟨entry, ⟨hentry, hid⟩, rfl⟩, hmem.resolve_left hid⟩
  · rfl
  · rfl
  · rfl

variable (faults s) in
/-- The bulk request deletes every named chat that is there. -/
theorem batchDelete_eq (request : ChatIds) :
    (s.batchDelete faults request).1 =
      s.removeChats faults (request.ids.filter fun id ↦ s.chats.has id) := by
  have hmem : ∀ id, id ∈ request.ids.eraseDups.filter (fun id ↦ s.chats.has id) ↔
      id ∈ request.ids.filter fun id ↦ s.chats.has id := by
    simp
  rw [← removeChats_congr hmem]
  unfold ChatStore.batchDelete
  dsimp only
  split
  · rename_i hempty
    rw [List.isEmpty_iff.mp hempty, removeChats_nil]
  · rfl

/-! ## Worktrees -/

/-- A sweep that finds neither a stale registration nor the branch. -/
theorem sweep_eq_self {r : ProjectRepository} {branch : String} {calls : Faults}
    (hbranch : r.branches.get branch = none)
    (hpruned : calls.prune = false → ∀ other worktree, r.worktrees.get other = some worktree →
      r.isStale other worktree = false) : sweep r branch calls = r := by
  have hprune : r.worktreePrune calls.prune = r := by
    unfold Repository.worktreePrune
    split
    · rfl
    · rename_i hcall
      rw [JsMap.filter_eq_self]
      intro other worktree hregistered
      rw [hpruned (by simpa using hcall) other worktree hregistered]
      rfl
  unfold sweep Repository.branchDelete
  rw [hprune]
  split
  · rfl
  · rw [JsMap.delete_eq_self hbranch]

/-- A worktree that has nothing left is not dirty, and its deletion changes nothing. -/
theorem deleteChat_of_nothingLeft {project : Project} {path branch : String} {first later : Faults}
    (h : NothingLeft project path branch first later) :
    Worktrees.deleteChat project path branch first later = project ∧
      (cleanupIfClean project path branch first).2.reason ≠ .dirty := by
  cases hgit : project.isGitWorkTree with
  | false =>
    have hcleanup : cleanupIfClean project path branch first =
        (project, ⟨false, .not_a_git_repo⟩) := by
      simp [cleanupIfClean, hgit]
    have hremove : removeWorktree project path branch true later = project :=
      removeWorktree_of_not_git hgit true
    simp [Worktrees.deleteChat, hcleanup, hremove]
  | true =>
    obtain ⟨root, git, r⟩ := project
    cases hgit
    have hfirst : sweep r branch first = r :=
      sweep_eq_self h.branch fun hcall ↦ h.pruned rfl (Or.inl hcall)
    have hlater : sweep r branch later = r :=
      sweep_eq_self h.branch fun hcall ↦ h.pruned rfl (Or.inr hcall)
    have hcleanup : cleanupIfClean ⟨root, true, r⟩ path branch first =
        (⟨root, true, r⟩, ⟨true, .missing⟩) := by
      simp [cleanupIfClean, getWorktreeStatus, JsMap.has, h.directory, hfirst]
    have hremove : removeWorktree ⟨root, true, r⟩ path branch true later = ⟨root, true, r⟩ := by
      simp [removeWorktree, isWorkTreeAt, h.directory, hlater]
    simp [Worktrees.deleteChat, hcleanup, hremove]

/-- The deletion of a worktree only drops refs and directories of its repository. -/
theorem drops_deleteChat (project : Project) (path branch : String) (first later : Faults) :
    project.repository.Drops (Worktrees.deleteChat project path branch first later).repository := by
  by_cases hcleans : Cleans project path first
  · rw [repository_deleteChat hcleans]
    exact drops_afterRemove.trans drops_afterRemove
  · rw [deleteChat_of_not_cleans hcleans]
    exact .refl _

/-- A registration that is there after a prune was not stale. -/
theorem not_stale_of_sweep {r : ProjectRepository} {branch : String} {calls : Faults}
    (hcall : calls.prune = false) {other : String} {worktree : Git.Worktree String}
    (hleft : (sweep r branch calls).worktrees.get other = some worktree) :
    r.isStale other worktree = false := by
  rw [sweep, Repository.worktrees_branchDelete, Repository.worktreePrune, hcall,
    if_neg Bool.false_ne_true, JsMap.get_filter, Option.filter_eq_some_iff] at hleft
  simpa using hleft.2

/-- A registration that is there after the deletion of a worktree without a directory was not
stale. -/
theorem not_stale_of_deleteChat {project : Project} {path branch : String} {first later : Faults}
    (hgit : project.isGitWorkTree = true) (hdirectory : project.repository.directories.get path = none)
    (hcalls : first.prune = false ∨ later.prune = false) {other : String}
    {worktree : Git.Worktree String}
    (hleft : (Worktrees.deleteChat project path branch first later).repository.worktrees.get other =
      some worktree) : project.repository.isStale other worktree = false := by
  have hcleanup : cleanupIfClean project path branch first =
      ({ project with repository := sweep project.repository branch first }, ⟨true, .missing⟩) := by
    simp [cleanupIfClean, hgit, getWorktreeStatus, JsMap.has, hdirectory]
  have hgone : (sweep project.repository branch first).directories.get path = none := by
    simp [sweep, hdirectory]
  have hdelete : (Worktrees.deleteChat project path branch first later).repository =
      sweep (sweep project.repository branch first) branch later := by
    simp [Worktrees.deleteChat, hcleanup, removeWorktree, hgit, isWorkTreeAt, hgone]
  rw [hdelete] at hleft
  have hdrops (r : ProjectRepository) (calls : Faults) : r.Drops (sweep r branch calls) :=
    (Repository.drops_worktreePrune _).trans (Repository.drops_branchDelete _ _)
  rcases hcalls with hfirst | hlater
  · exact not_stale_of_sweep hfirst ((hdrops _ _).worktrees other worktree hleft)
  · exact (hdrops _ _).isStale (not_stale_of_sweep hlater hleft)

/-! ## One at a time -/

/-- A chat whose worktree has nothing left is deleted without a change to it. -/
theorem deleteChat_of_fits {chat : StoredChat} (hchat : s.chats.get id = some chat)
    (hfits : Fits faults s id chat) : s.deleteChat faults id = .ok (s.removeChat faults id) := by
  unfold ChatStore.deleteChat
  simp only [hchat]
  cases hworktree : s.worktree? chat with
  | none => rfl
  | some named =>
    obtain ⟨projectPath, path, branch⟩ := named
    have hnothing (project : Project) (hproject : s.projects.get projectPath = some project) :=
      deleteChat_of_nothingLeft (hfits.worktree projectPath path branch project hworktree hproject)
    have hclean : ((s.projects.get projectPath).any fun project ↦
        (cleanupIfClean project path branch (faults.cleanup id)).2.reason = .dirty) = false := by
      cases hproject : s.projects.get projectPath with
      | none => rfl
      | some project => simp [(hnothing project hproject).2]
    have hsame : (s.projects.modify projectPath fun project ↦ Worktrees.deleteChat project path
        branch (faults.cleanup id) (faults.removal id)) = s.projects :=
      JsMap.modify_eq_self fun project hproject ↦ (hnothing project hproject).1
    dsimp only
    rw [hclean, if_neg Bool.false_ne_true, hsame]

theorem mem_listAttachmentsForChat_iff {attachment : AttachmentRow} :
    attachment ∈ s.listAttachmentsForChat id ↔
      (∃ key, s.attachments.get key = some attachment) ∧ attachment.chat = id := by
  simp [ChatStore.listAttachmentsForChat, JsMap.mem_entries_iff]

theorem mem_files_removeChat_iff {file : String} :
    file ∈ (s.removeChat faults id).files ↔ file ∈ s.files ∧
      ∀ attachment ∈ s.listAttachmentsForChat id,
        faults.unlink attachment.path = true ∨ file ≠ attachment.path := by
  simp [ChatStore.removeChat, deleteAttachmentFiles_eq_filter]

theorem daemon_removeChat : (s.removeChat faults id).daemon =
    { s.daemon with
      turns := s.daemon.turns.mapWithKey fun session turn ↦
        if s.daemon.executor.sessions.get id = some session then { turn with aborted := true }
        else turn } :=
  cancelIfRunning_eq _ _

/-- Deleting a chat leaves the others fit. -/
theorem Fits.removeChat {other : ChatId} {chat : StoredChat} (hfits : Fits faults s other chat) :
    Fits faults (s.removeChat faults id) other chat := by
  refine ⟨fun attachment hattachment hfile ↦ ?_, fun session turn hturn hchat hlive ↦ ?_,
    hfits.worktree⟩
  · obtain ⟨⟨key, hkey⟩, hchat⟩ := mem_listAttachmentsForChat_iff.mp hattachment
    have hstored : s.attachments.get key = some attachment := by
      rw [ChatStore.removeChat, JsMap.get_filter, Option.filter_eq_some_iff] at hkey
      exact hkey.1
    exact hfits.unlinked attachment (mem_listAttachmentsForChat_iff.mpr ⟨⟨key, hstored⟩, hchat⟩)
      (mem_files_removeChat_iff.mp hfile).1
  · rw [daemon_removeChat, JsMap.get_mapWithKey, Option.map_eq_some_iff] at hturn
    obtain ⟨stored, hstored, rfl⟩ := hturn
    rw [daemon_removeChat]
    by_cases hid : s.daemon.executor.sessions.get id = some session
    · rw [if_pos hid]
      exact Or.inl rfl
    · rw [if_neg hid] at hchat hlive ⊢
      exact hfits.sessions session stored hstored hchat hlive

theorem get_chats_removeChat (other : ChatId) :
    (s.removeChat faults id).chats.get other = if other = id then none else s.chats.get other :=
  JsMap.get_delete _ _ _

/-- Where every named chat is fit, the single requests delete what the bulk request deletes. -/
theorem deleteEach_of_fits (ids : List ChatId)
    (hfits : ∀ id ∈ ids, ∀ chat, s.chats.get id = some chat → Fits faults s id chat) :
    s.deleteEach faults ids = s.removeChats faults (ids.filter fun id ↦ s.chats.has id) := by
  induction ids generalizing s with
  | nil => exact removeChats_nil.symm
  | cons id ids ih =>
    rw [ChatStore.deleteEach, List.foldl_cons]
    cases hchat : s.chats.get id with
    | none =>
      have hhas : s.chats.has id = false := by simp [JsMap.has, hchat]
      have hafter : s.afterDelete faults id = s := by
        simp [ChatStore.afterDelete, ChatStore.deleteChat, hchat]
      rw [hafter, List.filter_cons_of_neg (by simp [hhas])]
      exact ih fun other hother ↦ hfits other (List.mem_cons_of_mem _ hother)
    | some chat =>
      have hhas : s.chats.has id = true := by simp [JsMap.has, hchat]
      have hafter : s.afterDelete faults id = s.removeChat faults id := by
        rw [ChatStore.afterDelete, deleteChat_of_fits hchat (hfits id List.mem_cons_self chat hchat)]
      have hlater : ∀ other ∈ ids, ∀ stored, (s.removeChat faults id).chats.get other =
          some stored → Fits faults (s.removeChat faults id) other stored := by
        intro other hother stored hstored
        rw [get_chats_removeChat] at hstored
        split at hstored
        · cases hstored
        · exact (hfits other (List.mem_cons_of_mem _ hother) stored hstored).removeChat
      rw [hafter, List.filter_cons_of_pos hhas]
      refine (ih hlater).trans ?_
      rw [← removeChats_cons]
      -- a later mention of the chat names no chat any more
      refine removeChats_congr fun other ↦ ?_
      by_cases hother : other = id
      · simp [hother]
      · simp [hother, JsMap.has, get_chats_removeChat]

/-! ## What is kept until a chat's turn -/

/-- Requests only drop refs and directories of the projects. -/
def DropsProjects (s next : ChatStore) : Prop :=
  ∀ path project, s.projects.get path = some project →
    ∃ left, next.projects.get path = some left ∧ left.isGitWorkTree = project.isGitWorkTree ∧
      project.repository.Drops left.repository

theorem DropsProjects.trans {next last : ChatStore} (h : DropsProjects s next)
    (hlast : DropsProjects next last) : DropsProjects s last := by
  intro path project hproject
  obtain ⟨left, hleft, hgit, hdrops⟩ := h path project hproject
  obtain ⟨final, hfinal, hgit', hdrops'⟩ := hlast path left hleft
  exact ⟨final, hfinal, hgit'.trans hgit, hdrops.trans hdrops'⟩

theorem isGitWorkTree_deleteChat (project : Project) (path branch : String) (first later : Faults) :
    (Worktrees.deleteChat project path branch first later).isGitWorkTree =
      project.isGitWorkTree := by
  have hremove (kept : Project) (force : Bool) (calls : Faults) :
      (removeWorktree kept path branch force calls).isGitWorkTree = kept.isGitWorkTree := by
    unfold removeWorktree
    split <;> rfl
  by_cases hcleans : Cleans project path first
  · obtain ⟨hcleaned, -, hreason⟩ := cleanupIfClean_of_cleans branch hcleans
    rw [Worktrees.deleteChat, if_neg hreason, hremove, hcleaned, hremove]
  · rw [deleteChat_of_not_cleans hcleans]

variable (faults s id) in
/-- A request changes nothing, or deletes the chat after it has dropped something of its project. -/
theorem afterDelete_cases :
    s.afterDelete faults id = s ∨ ∃ projects, DropsProjects s { s with projects := projects } ∧
      s.afterDelete faults id =
        ChatStore.removeChat faults { s with projects := projects } id := by
  have hrefl : DropsProjects s s := fun path project hproject ↦ ⟨project, hproject, rfl, .refl _⟩
  unfold ChatStore.afterDelete ChatStore.deleteChat
  cases hchat : s.chats.get id with
  | none => exact Or.inl rfl
  | some chat =>
    dsimp only
    cases hworktree : s.worktree? chat with
    | none => exact Or.inr ⟨s.projects, hrefl, rfl⟩
    | some named =>
      obtain ⟨projectPath, path, branch⟩ := named
      dsimp only
      by_cases hdirty : ((s.projects.get projectPath).any fun project ↦
          (cleanupIfClean project path branch (faults.cleanup id)).2.reason = .dirty) = true
      · rw [if_pos hdirty]
        exact Or.inl rfl
      · rw [if_neg hdirty]
        refine Or.inr ⟨_, fun other project hproject ↦ ?_, rfl⟩
        dsimp only
        rw [JsMap.get_modify]
        by_cases hother : other = projectPath
        · rw [if_pos hother, ← hother, hproject]
          exact ⟨_, rfl, isGitWorkTree_deleteChat _ _ _ _ _, drops_deleteChat _ _ _ _ _⟩
        · rw [if_neg hother]
          exact hrefl other project hproject

variable (faults) in
theorem dropsProjects_deleteEach (ids : List ChatId) : DropsProjects s (s.deleteEach faults ids) := by
  induction ids generalizing s with
  | nil => exact fun path project hproject ↦ ⟨project, hproject, rfl, .refl _⟩
  | cons id ids ih =>
    refine DropsProjects.trans ?_ (ih (s := s.afterDelete faults id))
    rcases afterDelete_cases faults s id with hsame | ⟨projects, hdrops, hdeleted⟩
    · rw [hsame]
      exact fun path project hproject ↦ ⟨project, hproject, rfl, .refl _⟩
    · rw [hdeleted]
      exact hdrops

variable (faults) in
/-- The requests for other chats leave a chat and the paths of the projects. -/
theorem kept_of_deleteEach {ids : List ChatId} (hid : id ∉ ids) :
    (s.deleteEach faults ids).chats.get id = s.chats.get id ∧
      (s.deleteEach faults ids).projectPaths = s.projectPaths := by
  induction ids generalizing s with
  | nil => exact ⟨rfl, rfl⟩
  | cons other ids ih =>
    rw [List.mem_cons, not_or] at hid
    obtain ⟨hchat, hpaths⟩ := ih (s := s.afterDelete faults other) hid.2
    rcases afterDelete_cases faults s other with hsame | ⟨projects, -, hdeleted⟩
    · rw [hsame] at hchat hpaths
      rw [ChatStore.deleteEach, List.foldl_cons, hsame]
      exact ⟨hchat, hpaths⟩
    · rw [ChatStore.deleteEach, List.foldl_cons]
      refine ⟨hchat.trans ?_, hpaths.trans ?_⟩
      · rw [hdeleted, get_chats_removeChat, if_neg hid.1]
      · rw [hdeleted]
        rfl

/-- Where the single requests leave a project as it was, the registrations of one without the
directory of its worktree were not stale. -/
theorem not_stale_of_deleteEach {ids : List ChatId} (hid : id ∈ ids) {chat : StoredChat}
    (hchat : s.chats.get id = some chat) (hsame : (s.deleteEach faults ids).projects = s.projects)
    {projectPath path branch : String}
    (hworktree : s.worktree? chat = some (projectPath, path, branch))
    {project : Project} (hproject : s.projects.get projectPath = some project)
    (hdirectory : project.repository.directories.get path = none)
    (hgit : project.isGitWorkTree = true)
    (hcalls : (faults.cleanup id).prune = false ∨ (faults.removal id).prune = false)
    {other : String} {worktree : Git.Worktree String}
    (hregistered : project.repository.worktrees.get other = some worktree) :
    project.repository.isStale other worktree = false := by
  obtain ⟨earlier, later, rfl, hfirst⟩ := List.eq_append_cons_of_mem hid
  obtain ⟨hkept, hpaths⟩ := kept_of_deleteEach (s := s) faults hfirst
  obtain ⟨left, hleft, hleftGit, hdrops⟩ :=
    dropsProjects_deleteEach (s := s) faults earlier projectPath project hproject
  have hgone : left.repository.directories.get path = none := by
    cases hleftDirectory : left.repository.directories.get path with
    | none => rfl
    | some directory =>
      cases hdirectory.symm.trans (hdrops.directories path directory hleftDirectory)
  have hcleanup : cleanupIfClean left path branch (faults.cleanup id) =
      ({ left with repository := sweep left.repository branch (faults.cleanup id) },
        ⟨true, .missing⟩) := by
    simp [cleanupIfClean, hleftGit, hgit, getWorktreeStatus, JsMap.has, hgone]
  have hnamed : (s.deleteEach faults earlier).worktree? chat = some (projectPath, path, branch) := by
    rw [ChatStore.worktree?, hpaths]
    exact hworktree
  have hafter : ((s.deleteEach faults earlier).afterDelete faults id).projects.get projectPath =
      some (Worktrees.deleteChat left path branch (faults.cleanup id) (faults.removal id)) := by
    unfold ChatStore.afterDelete ChatStore.deleteChat
    simp only [hkept, hchat, hnamed, hleft, Option.any_some, hcleanup, reduceCtorEq, decide_false,
      Bool.false_eq_true, if_false]
    change (JsMap.modify _ _ _).get projectPath = _
    rw [JsMap.get_modify, if_pos rfl, hleft, Option.map_some]
  obtain ⟨final, hfinal, -, hlast⟩ :=
    dropsProjects_deleteEach faults later projectPath _ hafter
  have hend : s.deleteEach faults (earlier ++ id :: later) =
      ((s.deleteEach faults earlier).afterDelete faults id).deleteEach faults later := by
    rw [ChatStore.deleteEach, List.foldl_append, List.foldl_cons]
    rfl
  rw [← hend, hsame, hproject] at hfinal
  cases hfinal
  exact hdrops.isStale (not_stale_of_deleteChat (hleftGit.trans hgit) hgone hcalls
    (hlast.worktrees other worktree hregistered))

/-! ## The equivalence -/

theorem mem_files_removeChats_iff {ids : List ChatId} {file : String} :
    file ∈ (s.removeChats faults ids).files ↔ file ∈ s.files ∧
      ∀ attachment, (∃ key, s.attachments.get key = some attachment) → attachment.chat ∈ ids →
        faults.unlink attachment.path = true ∨ file ≠ attachment.path := by
  simp only [ChatStore.removeChats, deleteAttachmentFiles_eq_filter, List.mem_filter,
    List.all_eq_true, List.mem_map, Bool.or_eq_true, decide_eq_true_eq]
  refine and_congr_right fun _ ↦ ⟨?_, ?_⟩
  · rintro h attachment ⟨key, hkey⟩ hchat
    have hentry := (s.attachments.mem_entries_iff key attachment).mpr hkey
    exact h attachment ⟨⟨(key, attachment), hentry, rfl⟩, hchat⟩
  · rintro h attachment ⟨⟨⟨key, stored⟩, hentry, rfl⟩, hchat⟩
    exact h stored ⟨key, (s.attachments.mem_entries_iff key stored).mp hentry⟩ hchat

theorem daemon_removeChats (ids : List ChatId) : (s.removeChats faults ids).daemon =
    { s.daemon with
      turns := s.daemon.turns.mapWithKey fun session turn ↦
        if ∃ chat ∈ ids, s.daemon.executor.sessions.get chat = some session then
          { turn with aborted := true }
        else turn } :=
  cancelEach_eq _ _

/-- The files of a deleted chat are gone exactly when they can be unlinked. -/
theorem files_removed_iff {ids : List ChatId} (hid : id ∈ ids) :
    (∀ attachment ∈ s.listAttachmentsForChat id,
      attachment.path ∉ (s.removeChats faults ids).files) ↔
      ∀ attachment ∈ s.listAttachmentsForChat id, attachment.path ∈ s.files →
        faults.unlink attachment.path = false := by
  refine forall₂_congr fun attachment hattachment ↦ ?_
  obtain ⟨hstored, hchat⟩ := mem_listAttachmentsForChat_iff.mp hattachment
  rw [mem_files_removeChats_iff]
  constructor
  · intro hgone hfile
    rw [← Bool.not_eq_true]
    intro hfails
    refine hgone ⟨hfile, fun other _ _ ↦ ?_⟩
    by_cases hsame : attachment.path = other.path
    · exact Or.inl (hsame ▸ hfails)
    · exact Or.inr hsame
  · rintro hunlinked ⟨hfile, hall⟩
    rcases hall attachment hstored (hchat ▸ hid) with hfails | hne
    · cases (hunlinked hfile).symm.trans hfails
    · exact hne rfl

/-- The live sessions of a deleted chat are stopped exactly when each of them is the one the executor
keeps, or was stopped before. -/
theorem sessions_stopped_iff {ids : List ChatId} (hid : id ∈ ids) :
    (∀ session turn, (s.removeChats faults ids).daemon.turns.get session = some turn →
      turn.chat = id → turn.IsLive → turn.aborted = true) ↔
      ∀ session turn, s.daemon.turns.get session = some turn → turn.chat = id → turn.IsLive →
        turn.aborted = true ∨ s.daemon.executor.sessions.get id = some session := by
  rw [daemon_removeChats]
  constructor
  · intro hstopped session turn hturn hchat hlive
    by_cases hkept : ∃ chat ∈ ids, s.daemon.executor.sessions.get chat = some session
    · obtain ⟨chat, -, hsession⟩ := hkept
      have hsame : turn.chat = chat := s.owned chat session turn hsession hturn
      exact Or.inr (hchat ▸ hsame ▸ hsession)
    · refine Or.inl (hstopped session turn ?_ hchat hlive)
      rw [JsMap.get_mapWithKey, hturn, Option.map_some, if_neg hkept]
  · intro hfits session turn hturn hchat hlive
    rw [JsMap.get_mapWithKey, Option.map_eq_some_iff] at hturn
    obtain ⟨stored, hstored, rfl⟩ := hturn
    by_cases hkept : ∃ chat ∈ ids, s.daemon.executor.sessions.get chat = some session
    · rw [if_pos hkept]
    · rw [if_neg hkept] at hchat hlive ⊢
      refine (hfits session stored hstored hchat hlive).resolve_right fun hsession ↦ ?_
      exact hkept ⟨id, hid, hsession⟩

end

/-- The bulk request does what the single requests do one after the other, and leaves nothing of the
chats it deletes, exactly when every named chat that is there is fit. -/
theorem mirrors_single_iff (faults : DeleteFaults) (s : ChatStore) (request : ChatIds) :
    MirrorsSingle faults s request ↔
      ∀ id ∈ request.ids, ∀ chat, s.chats.get id = some chat → Fits faults s id chat := by
  have hbatch := batchDelete_eq faults s request
  have hpresent {id : ChatId} (hid : id ∈ request.ids) {chat : StoredChat}
      (hchat : s.chats.get id = some chat) : id ∈ request.ids.filter fun id ↦ s.chats.has id :=
    List.mem_filter.mpr ⟨hid, by simp [JsMap.has, hchat]⟩
  constructor
  · intro h id hid chat hchat
    have hmem := hpresent hid hchat
    have hgone : (s.batchDelete faults request).1.chats.get id = none := by
      rw [hbatch]
      exact (JsMap.get_deleteAll _ _ _).trans (if_pos hmem)
    have hdeleted := h.deleted id hid chat hchat hgone
    rw [hbatch] at hdeleted
    have hsame : (s.deleteEach faults request.ids).projects = s.projects := by
      rw [← h.same, hbatch]
      rfl
    refine ⟨(files_removed_iff hmem).mp hdeleted.files,
      (sessions_stopped_iff hmem).mp hdeleted.sessions, ?_⟩
    intro projectPath path branch project hworktree hproject
    obtain ⟨hdirectory, hbranch⟩ :=
      hdeleted.worktree projectPath path branch project hworktree hproject
    refine ⟨hdirectory, hbranch, fun hgit hcalls other worktree hregistered ↦ ?_⟩
    exact not_stale_of_deleteEach hid hchat hsame hworktree hproject hdirectory hgit hcalls
      hregistered
  · intro hfits
    refine ⟨?_, fun id hid chat hchat _ ↦ ?_, fun id ↦ ?_⟩
    · rw [hbatch, deleteEach_of_fits request.ids hfits]
    · have hmem := hpresent hid hchat
      have hfit := hfits id hid chat hchat
      rw [hbatch]
      refine ⟨(files_removed_iff hmem).mpr hfit.unlinked, ?_,
        (sessions_stopped_iff hmem).mpr hfit.sessions⟩
      intro projectPath path branch project hworktree hproject
      have hnothing := hfit.worktree projectPath path branch project hworktree hproject
      exact ⟨hnothing.directory, hnothing.branch⟩
    · have hmissing : (s.batchDelete faults request).2.missing =
          request.ids.eraseDups.filter fun id ↦ !s.chats.has id := by
        unfold ChatStore.batchDelete
        dsimp only
        split <;> rfl
      rw [hmissing]
      simp [JsMap.has]

/-- The request for chat 1. -/
def chatOne : ChatIds := ⟨[1], by decide, by decide, by decide⟩

/-- A chat with a worktree that holds a commit of its own. -/
def isolatedChat (directory : Directory String) : ChatStore where
  chats := JsMap.empty.set 1
    { projectId := some 1
      worktreePath := some "/p/.flockctl/worktrees/chat-1"
      worktreeBranch := some "flockctl/chat-1" }
  projectPaths := JsMap.empty.set 1 "/p"
  projects := JsMap.empty.set "/p" (committed directory)

/-- A chat that a message has claimed, before its session is registered. -/
def claimedChat : ChatStore where
  chats := JsMap.empty.set 1 {}
  daemon :=
    { executor := { pendingSessions := {1} }
      turns := JsMap.empty.set 5 ⟨1, .stream, .setup, false⟩ }

/-- The bulk request deletes a chat whose worktree is dirty, leaves a clean worktree behind, and does
not stop a claimed chat. -/
theorem not_mirrors_single :
    ¬MirrorsSingle {} (isolatedChat { changes := ["notes.md"] }) chatOne ∧
    ¬MirrorsSingle {} (isolatedChat {}) chatOne ∧ ¬MirrorsSingle {} claimedChat chatOne := by
  refine ⟨fun h ↦ ?_, fun h ↦ ?_, fun h ↦ ?_⟩
  · have hkept : ((isolatedChat { changes := ["notes.md"] }).deleteEach {} [1]).chats.has 1 =
        true := by
      decide +kernel
    have hgone : ((isolatedChat { changes := ["notes.md"] }).batchDelete {} chatOne).1.chats.has 1 =
        false := by
      decide +kernel
    rw [h.same] at hgone
    cases hkept.symm.trans hgone
  · have hdeleted := h.deleted 1 (by decide) _ rfl (by decide +kernel)
    have hleft := (hdeleted.worktree "/p" _ _ _ rfl rfl).2
    revert hleft
    decide +kernel
  · have hdeleted := h.deleted 1 (by decide) {} rfl (by decide +kernel)
    have hstopped := hdeleted.sessions 5 ⟨1, .stream, .setup, false⟩ (by decide +kernel) rfl
      (Or.inr ⟨rfl, nofun⟩)
    cases hstopped

end Flockctl.Chats
