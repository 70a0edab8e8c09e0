import Flockctl.Git.Repository
import Flockctl.Transition.Run

/-!
# The worktree manager

A task or chat that runs in isolation has a worktree of its own in the repository of its project.
The manager creates it or reattaches to it, and removes it when it is clean; deleting a chat removes
what is left of its worktree by force. A git call may fail for any reason, and most failures are
swallowed.
-/

namespace Flockctl.Worktrees

open Collections Git

inductive WorktreeOwnerKind
  | task
  | chat
  deriving DecidableEq, Repr

structure Owner where
  kind : WorktreeOwnerKind
  id : ℕ
  deriving DecidableEq, Repr

inductive WorktreeErrorCode
  | not_a_git_repo
  | no_initial_commit
  | git_command_failed
  | worktree_path_blocked
  deriving DecidableEq, Repr

/-- The git calls of one operation that fail for a reason outside of the repository. -/
structure Faults where
  verify : Bool := false
  add : Bool := false
  status : Bool := false
  remove : Bool := false
  prune : Bool := false
  branch : Bool := false
  deriving DecidableEq, Repr

abbrev ProjectRepository := Repository String String String

/-- A project: its path, whether there is a repository at it, and that repository. -/
structure Project where
  path : String
  isGitWorkTree : Bool := true
  repository : ProjectRepository

structure CreateWorktreeResult where
  path : String
  branch : String
  reused : Bool
  deriving DecidableEq, Repr

structure WorktreeStatus where
  pathExists : Bool
  registered : Bool
  hasUncommittedChanges : Bool
  deriving DecidableEq, Repr

inductive CleanupReason
  | clean
  | dirty
  | missing
  | not_a_git_repo
  deriving DecidableEq, Repr

structure CleanupResult where
  removed : Bool
  reason : CleanupReason
  deriving DecidableEq, Repr

def WorktreeOwnerKind.name : WorktreeOwnerKind → String
  | .task => "task"
  | .chat => "chat"

def Owner.slug (owner : Owner) : String := owner.kind.name ++ "-" ++ toString owner.id

def buildBranchName (owner : Owner) : String := "flockctl/" ++ owner.slug

def buildWorktreePath (projectPath : String) (owner : Owner) : String :=
  projectPath ++ "/.flockctl/worktrees/" ++ owner.slug

/-- `isGitWorkTree` on a directory of the disk. -/
def isWorkTreeAt (r : ProjectRepository) (path : String) : Bool :=
  match r.directories.get path with
  | none => false
  | some directory => directory.isWorkTree

def createWorktree (p : Project) (owner : Owner) (faults : Faults) :
    Except WorktreeErrorCode (Project × CreateWorktreeResult) :=
  let wtPath := buildWorktreePath p.path owner
  let branch := buildBranchName owner
  if !p.path.startsWith "/" then .error .git_command_failed
  else if !p.isGitWorkTree then .error .not_a_git_repo
  else if faults.verify || p.repository.headCommit.isNone then .error .no_initial_commit
  else if p.repository.directories.has wtPath then
    if isWorkTreeAt p.repository wtPath then .ok (p, ⟨wtPath, branch, true⟩)
    else .error .worktree_path_blocked
  else
    let added :=
      if p.repository.branches.has branch then p.repository.worktreeAdd faults.add wtPath branch
      else p.repository.worktreeAddNew faults.add wtPath branch
    match added with
    | none => .error .git_command_failed
    | some repository => .ok ({ p with repository := repository }, ⟨wtPath, branch, false⟩)

/-- A failing `git status` counts as a clean worktree. -/
def getWorktreeStatus (r : ProjectRepository) (path : String) (faults : Faults) : WorktreeStatus :=
  if !r.directories.has path then ⟨false, false, false⟩
  else if !isWorkTreeAt r path then ⟨true, false, false⟩
  else ⟨true, true, !((r.status faults.status path).getD []).isEmpty⟩

/-- `git worktree prune`, then `git branch -D`. -/
def sweep (r : ProjectRepository) (branch : String) (faults : Faults) : ProjectRepository :=
  (r.worktreePrune faults.prune).branchDelete faults.branch branch

def removeWorktree (p : Project) (path branch : String) (force : Bool) (faults : Faults) : Project :=
  if !p.isGitWorkTree then p
  else
    let removed :=
      if isWorkTreeAt p.repository path then p.repository.worktreeRemove faults.remove force path
      else p.repository
    { p with repository := sweep removed branch faults }

def cleanupIfClean (p : Project) (path branch : String) (faults : Faults) :
    Project × CleanupResult :=
  if !p.isGitWorkTree then (p, ⟨false, .not_a_git_repo⟩)
  else
    let status := getWorktreeStatus p.repository path faults
    if !status.pathExists || !status.registered then
      ({ p with repository := sweep p.repository branch faults }, ⟨true, .missing⟩)
    else if status.hasUncommittedChanges then (p, ⟨false, .dirty⟩)
    else (removeWorktree p path branch false faults, ⟨true, .clean⟩)

/-- What `DELETE /chats/:id` without `force` does to the worktree of the chat. -/
def deleteChat (p : Project) (path branch : String) (faults later : Faults) : Project :=
  let cleanup := cleanupIfClean p path branch faults
  if cleanup.2.reason = .dirty then p
  else removeWorktree cleanup.1 path branch true later

inductive WorktreeEvent
  | createWorktree (owner : Owner) (faults : Faults)
  | cleanupIfClean (path branch : String) (faults : Faults)
  | removeWorktree (path branch : String) (faults : Faults)
  | deleteChat (path branch : String) (faults later : Faults)

def Project.step (p : Project) : WorktreeEvent → Project
  | .createWorktree owner faults =>
    match createWorktree p owner faults with
    | .error _ => p
    | .ok created => created.1
  | .cleanupIfClean path branch faults => (cleanupIfClean p path branch faults).1
  | .removeWorktree path branch faults => removeWorktree p path branch false faults
  | .deleteChat path branch faults later => deleteChat p path branch faults later

end Flockctl.Worktrees

/-!
# No work is lost without force

The operations keep every reachable commit and every uncommitted file, and a cleanup that reports a
removal has removed the worktree, exactly when the refs they delete are merged, the directories they
delete hold no file git would not report, and the removals they report have succeeded.
-/

namespace Flockctl.Worktrees

open Collections Git Transition

/-- Neither a directory nor a registration is at the path. -/
def IsGone (p : Project) (path : String) : Prop :=
  p.repository.directories.get path = none ∧ p.repository.worktrees.get path = none

/-- The cleanup an event makes. -/
def WorktreeEvent.cleanup? : WorktreeEvent → Option (String × String × Faults)
  | .cleanupIfClean path branch faults | .deleteChat path branch faults _ =>
    some (path, branch, faults)
  | .createWorktree _ _ | .removeWorktree _ _ _ => none

/-- No part of the run loses a reachable commit or an uncommitted file, and whatever a cleanup
reports as removed is gone. -/
structure NoWorkLost (p : Project) (events : List WorktreeEvent) : Prop where
  keeps : ∀ before middle, before ++ middle <+: events →
    (run Project.step p before).repository.Keeps
      (run Project.step p (before ++ middle)).repository
  truthful : ∀ before event path branch faults, before ++ [event] <+: events →
    event.cleanup? = some (path, branch, faults) →
    (cleanupIfClean (run Project.step p before) path branch faults).2.removed = true →
    IsGone (cleanupIfClean (run Project.step p before) path branch faults).1 path

/-- What `removeWorktree` leaves of a repository. -/
def afterRemove (r : ProjectRepository) (path branch : String) (force : Bool) (faults : Faults) :
    ProjectRepository :=
  sweep (r.worktreeRemove faults.remove force path) branch faults

/-- If the directory goes, it has no files, and the refs that go are merged. -/
structure RemovesSafely (r : ProjectRepository) (path branch : String) (force : Bool)
    (faults : Faults) : Prop where
  noFiles : faults.remove = false → r.canRemove force path = true → ∀ file, ¬r.hasFile path file
  merged : r.MergesDropped (afterRemove r path branch force faults)

/-- The worktree can be removed; or it is gone from the disk, and its registration is or can be
pruned. -/
def CanBeGone (r : ProjectRepository) (path : String) (faults : Faults) : Prop :=
  (faults.remove = false ∧ r.canRemove false path = true) ∨
    (r.directories.get path = none ∧ ∀ worktree, r.worktrees.get path = some worktree →
      faults.prune = false ∧ worktree.locked = false)

/-- The project is a repository and the worktree does not count as dirty. -/
def Cleans (p : Project) (path : String) (faults : Faults) : Prop :=
  p.isGitWorkTree = true ∧
    (getWorktreeStatus p.repository path faults).hasUncommittedChanges = false

def KeepsWork (p : Project) : WorktreeEvent → Prop
  | .createWorktree _ _ => True
  | .cleanupIfClean path branch faults => Cleans p path faults →
    CanBeGone p.repository path faults ∧ RemovesSafely p.repository path branch false faults
  | .removeWorktree path branch faults =>
    p.isGitWorkTree = true → RemovesSafely p.repository path branch false faults
  | .deleteChat path branch faults later => Cleans p path faults →
    (CanBeGone p.repository path faults ∧ RemovesSafely p.repository path branch false faults) ∧
      RemovesSafely (afterRemove p.repository path branch false faults) path branch true later

/-! ## Removals -/

section

variable {r : ProjectRepository} {path branch : String} {force : Bool} {faults : Faults}

theorem drops_afterRemove : r.Drops (afterRemove r path branch force faults) :=
  (Repository.drops_worktreeRemove _ _ _).trans
    ((Repository.drops_worktreePrune _).trans (Repository.drops_branchDelete _ _))

theorem directories_afterRemove :
    (afterRemove r path branch force faults).directories =
      (r.worktreeRemove faults.remove force path).directories := by
  simp [afterRemove, sweep]

theorem keeps_afterRemove_iff :
    r.Keeps (afterRemove r path branch force faults) ↔ RemovesSafely r path branch force faults := by
  have hfiles := Repository.files_worktreeRemove_iff (r := r) faults.remove force path
  have hsame (other file : String) : (afterRemove r path branch force faults).hasFile other file ↔
      (r.worktreeRemove faults.remove force path).hasFile other file :=
    Repository.hasFile_congr directories_afterRemove other file
  constructor
  · intro h
    refine ⟨hfiles.mp fun other file hfile ↦ ?_, drops_afterRemove.reachable_iff.mp h.commits⟩
    exact (hsame other file).mp (h.files other file hfile)
  · intro h
    refine ⟨drops_afterRemove.reachable_iff.mpr h.merged, fun other file hfile ↦ ?_⟩
    exact (hsame other file).mpr (hfiles.mpr h.noFiles other file hfile)

/-- After the removal nothing is left at the path exactly when it could be gone. -/
theorem isGone_afterRemove_iff :
    ((afterRemove r path branch false faults).directories.get path = none ∧
      (afterRemove r path branch false faults).worktrees.get path = none) ↔
      CanBeGone r path faults := by
  rw [directories_afterRemove]
  unfold afterRemove sweep CanBeGone
  rw [Repository.worktrees_branchDelete]
  by_cases hremoves : faults.remove = false ∧ r.canRemove false path = true
  · have hremoved : r.worktreeRemove faults.remove false path =
        { r with
          worktrees := r.worktrees.delete path
          directories := r.directories.delete path } := by
      simp [Repository.worktreeRemove, hremoves.1, hremoves.2]
    rw [hremoved]
    refine iff_of_true ⟨JsMap.get_delete_self _ _, ?_⟩ (Or.inl hremoves)
    unfold Repository.worktreePrune
    split
    · exact JsMap.get_delete_self _ _
    · rw [JsMap.get_filter, JsMap.get_delete_self]
      rfl
  · have hkept : r.worktreeRemove faults.remove false path = r := by
      unfold Repository.worktreeRemove
      rw [if_neg]
      simpa using hremoves
    rw [hkept]
    simp only [hremoves, false_or]
    refine and_congr_right fun hdirectory ↦ ?_
    unfold Repository.worktreePrune
    cases hprune : faults.prune with
    | true => simp [Option.eq_none_iff_forall_ne_some]
    | false =>
      rw [if_neg Bool.false_ne_true, JsMap.get_filter]
      cases r.worktrees.get path with
      | none => simp
      | some worktree => simp [Option.filter, Repository.isStale, hdirectory]

end

section

variable {p : Project} {path branch : String} {faults : Faults}

/-- Without its link the worktree cannot be removed anyway. -/
theorem repository_removeWorktree (hgit : p.isGitWorkTree = true) (force : Bool) :
    (removeWorktree p path branch force faults).repository =
      afterRemove p.repository path branch force faults := by
  unfold removeWorktree afterRemove
  simp only [hgit, Bool.not_true, Bool.false_eq_true, if_false]
  split
  · rfl
  · rename_i hlink
    have hcannot : p.repository.canRemove force path = false := by
      unfold isWorkTreeAt at hlink
      unfold Repository.canRemove
      cases p.repository.worktrees.get path with
      | none => rfl
      | some worktree =>
        cases hdirectory : p.repository.directories.get path with
        | none => rfl
        | some directory =>
          rw [hdirectory, Bool.not_eq_true] at hlink
          simp only [hlink, Bool.and_false, Bool.false_and]
    rw [Repository.worktreeRemove, hcannot, Bool.and_false, if_neg Bool.false_ne_true]

theorem removeWorktree_of_not_git (hgit : p.isGitWorkTree = false) (force : Bool) :
    removeWorktree p path branch force faults = p := by
  simp [removeWorktree, hgit]

theorem isWorkTreeAt_of_missing {r : ProjectRepository}
    (hmissing : (!(getWorktreeStatus r path faults).pathExists ||
      !(getWorktreeStatus r path faults).registered) = true) : isWorkTreeAt r path = false := by
  unfold getWorktreeStatus at hmissing
  split at hmissing
  · rename_i habsent
    have hnone : r.directories.get path = none := by simpa [JsMap.has] using habsent
    simp [isWorkTreeAt, hnone]
  · split at hmissing
    · rename_i hlink
      simpa using hlink
    · cases hmissing

theorem not_hasUncommittedChanges_of_missing {r : ProjectRepository}
    (hmissing : (!(getWorktreeStatus r path faults).pathExists ||
      !(getWorktreeStatus r path faults).registered) = true) :
    (getWorktreeStatus r path faults).hasUncommittedChanges = false := by
  unfold getWorktreeStatus at hmissing ⊢
  split
  · rfl
  · split
    · rfl
    · rename_i hexists hlink
      rw [if_neg hexists, if_neg hlink] at hmissing
      cases hmissing

variable (branch) in
/-- A cleanup that does not find the worktree dirty removes it and says so. -/
theorem cleanupIfClean_of_cleans (h : Cleans p path faults) :
    (cleanupIfClean p path branch faults).1 = removeWorktree p path branch false faults ∧
      (cleanupIfClean p path branch faults).2.removed = true ∧
      (cleanupIfClean p path branch faults).2.reason ≠ .dirty := by
  obtain ⟨hgit, hstatus⟩ := h
  unfold cleanupIfClean
  simp only [hgit, hstatus, Bool.not_true, Bool.false_eq_true, if_false]
  split
  · rename_i hmissing
    refine ⟨?_, rfl, nofun⟩
    rw [removeWorktree, hgit, isWorkTreeAt_of_missing hmissing]
    rfl
  · exact ⟨rfl, rfl, nofun⟩

variable (branch) in
/-- Otherwise it changes nothing and says so. -/
theorem cleanupIfClean_of_not_cleans (h : ¬Cleans p path faults) :
    (cleanupIfClean p path branch faults).1 = p ∧
      (cleanupIfClean p path branch faults).2.removed = false ∧
      (p.isGitWorkTree = true → (cleanupIfClean p path branch faults).2.reason = .dirty) := by
  unfold cleanupIfClean
  split
  · rename_i hgit
    refine ⟨rfl, rfl, fun hrepository ↦ ?_⟩
    rw [hrepository] at hgit
    cases hgit
  · rename_i hgit
    have hdirty : (getWorktreeStatus p.repository path faults).hasUncommittedChanges = true := by
      rw [← Bool.not_eq_false]
      exact fun hclean ↦ h ⟨by simpa using hgit, hclean⟩
    dsimp only
    split
    · rename_i hmissing
      rw [not_hasUncommittedChanges_of_missing hmissing] at hdirty
      cases hdirty
    · exact ⟨rfl, rfl, fun _ ↦ rfl⟩

/-- A dirty worktree, or a project without a repository, stops a chat from being deleted or leaves
nothing to remove. -/
theorem deleteChat_of_not_cleans (h : ¬Cleans p path faults) (later : Faults) :
    deleteChat p path branch faults later = p := by
  unfold deleteChat
  dsimp only
  split
  · rfl
  · rename_i hreason
    obtain ⟨hsame, -, hdirty⟩ := cleanupIfClean_of_not_cleans branch h
    rw [hsame]
    cases hgit : p.isGitWorkTree with
    | false => exact removeWorktree_of_not_git hgit true
    | true => exact absurd (hdirty hgit) hreason

theorem repository_deleteChat (h : Cleans p path faults) (later : Faults) :
    (deleteChat p path branch faults later).repository =
      afterRemove (afterRemove p.repository path branch false faults) path branch true later := by
  obtain ⟨hcleaned, -, hreason⟩ := cleanupIfClean_of_cleans branch h
  unfold deleteChat
  dsimp only
  have hgit : (removeWorktree p path branch false faults).isGitWorkTree = true := by
    simp [removeWorktree, h.1]
  rw [if_neg hreason, hcleaned, repository_removeWorktree hgit, repository_removeWorktree h.1]

end

/-! ## Steps -/

/-- One step keeps the work, and what its cleanup reports as removed is gone. -/
structure StepKeeps (p : Project) (event : WorktreeEvent) : Prop where
  keeps : p.repository.Keeps (p.step event).repository
  truthful : ∀ path branch faults, event.cleanup? = some (path, branch, faults) →
    (cleanupIfClean p path branch faults).2.removed = true →
    IsGone (cleanupIfClean p path branch faults).1 path

theorem keeps_createWorktree (p : Project) (owner : Owner) (faults : Faults) :
    p.repository.Keeps (p.step (.createWorktree owner faults)).repository := by
  have hcreate : ∀ created, createWorktree p owner faults = .ok created →
      p.repository.Keeps created.1.repository := by
    intro created hcreated
    unfold createWorktree at hcreated
    dsimp only at hcreated
    split at hcreated <;> try cases hcreated
    split at hcreated <;> try cases hcreated
    split at hcreated <;> try cases hcreated
    split at hcreated
    · split at hcreated <;> cases hcreated
      exact .refl _
    · split at hcreated
      · cases hcreated
      · rename_i repository hadded
        cases hcreated
        split at hadded
        · exact Repository.keeps_worktreeAdd hadded
        · exact Repository.keeps_worktreeAddNew hadded
  change p.repository.Keeps (match createWorktree p owner faults with
    | .error _ => p
    | .ok created => created.1).repository
  cases hresult : createWorktree p owner faults with
  | error code => exact .refl _
  | ok created => exact hcreate created hresult

/-- What a cleanup that goes on leaves is gone exactly when it could be. -/
theorem isGone_cleanup_iff {p : Project} {path branch : String} {faults : Faults}
    (h : Cleans p path faults) :
    IsGone (cleanupIfClean p path branch faults).1 path ↔ CanBeGone p.repository path faults := by
  rw [IsGone, (cleanupIfClean_of_cleans branch h).1, repository_removeWorktree h.1]
  exact isGone_afterRemove_iff

theorem stepKeeps_cleanupIfClean_iff (p : Project) (path branch : String) (faults : Faults) :
    StepKeeps p (.cleanupIfClean path branch faults) ↔
      (Cleans p path faults → CanBeGone p.repository path faults ∧
        RemovesSafely p.repository path branch false faults) := by
  by_cases hcleans : Cleans p path faults
  · obtain ⟨hcleaned, hremoved, -⟩ := cleanupIfClean_of_cleans branch hcleans
    have hrepository : (p.step (.cleanupIfClean path branch faults)).repository =
        afterRemove p.repository path branch false faults := by
      rw [Project.step, hcleaned, repository_removeWorktree hcleans.1]
    constructor
    · rintro h -
      refine ⟨(isGone_cleanup_iff hcleans).mp (h.truthful path branch faults rfl hremoved), ?_⟩
      exact keeps_afterRemove_iff.mp (hrepository ▸ h.keeps)
    · intro h
      obtain ⟨hgone, hsafe⟩ := h hcleans
      refine ⟨hrepository ▸ keeps_afterRemove_iff.mpr hsafe, ?_⟩
      rintro _ _ _ ⟨⟩ -
      exact (isGone_cleanup_iff hcleans).mpr hgone
  · obtain ⟨hsame, hremoved, -⟩ := cleanupIfClean_of_not_cleans branch hcleans
    refine iff_of_true ⟨?_, ?_⟩ fun h ↦ absurd h hcleans
    · rw [Project.step, hsame]
      exact .refl _
    · rintro _ _ _ ⟨⟩ hreported
      exact absurd hreported (by rw [hremoved]; exact Bool.false_ne_true)

theorem stepKeeps_removeWorktree_iff (p : Project) (path branch : String) (faults : Faults) :
    StepKeeps p (.removeWorktree path branch faults) ↔
      (p.isGitWorkTree = true → RemovesSafely p.repository path branch false faults) := by
  cases hgit : p.isGitWorkTree with
  | false =>
    refine iff_of_true ⟨?_, nofun⟩ nofun
    rw [Project.step, removeWorktree_of_not_git hgit]
    exact .refl _
  | true =>
    have hrepository : (p.step (.removeWorktree path branch faults)).repository =
        afterRemove p.repository path branch false faults :=
      repository_removeWorktree hgit false
    constructor
    · rintro h -
      exact keeps_afterRemove_iff.mp (hrepository ▸ h.keeps)
    · intro h
      exact ⟨hrepository ▸ keeps_afterRemove_iff.mpr (h rfl), nofun⟩

theorem stepKeeps_deleteChat_iff (p : Project) (path branch : String) (faults later : Faults) :
    StepKeeps p (.deleteChat path branch faults later) ↔
      (Cleans p path faults → (CanBeGone p.repository path faults ∧
        RemovesSafely p.repository path branch false faults) ∧
          RemovesSafely (afterRemove p.repository path branch false faults) path branch true
            later) := by
  by_cases hcleans : Cleans p path faults
  · obtain ⟨-, hremoved, -⟩ := cleanupIfClean_of_cleans branch hcleans
    have hrepository : (p.step (.deleteChat path branch faults later)).repository =
        afterRemove (afterRemove p.repository path branch false faults) path branch true later :=
      repository_deleteChat hcleans later
    have hkeeps : p.repository.Keeps (p.step (.deleteChat path branch faults later)).repository ↔
        RemovesSafely p.repository path branch false faults ∧
          RemovesSafely (afterRemove p.repository path branch false faults) path branch true
            later := by
      rw [hrepository, ← keeps_afterRemove_iff, ← keeps_afterRemove_iff]
      exact drops_afterRemove.keeps_iff drops_afterRemove
    constructor
    · rintro h -
      obtain ⟨hfirst, hsecond⟩ := hkeeps.mp h.keeps
      have hgone := h.truthful path branch faults rfl hremoved
      exact ⟨⟨(isGone_cleanup_iff hcleans).mp hgone, hfirst⟩, hsecond⟩
    · intro h
      obtain ⟨⟨hgone, hfirst⟩, hsecond⟩ := h hcleans
      refine ⟨hkeeps.mpr ⟨hfirst, hsecond⟩, ?_⟩
      rintro _ _ _ ⟨⟩ -
      exact (isGone_cleanup_iff hcleans).mpr hgone
  · obtain ⟨-, hremoved, -⟩ := cleanupIfClean_of_not_cleans branch hcleans
    refine iff_of_true ⟨?_, ?_⟩ fun h ↦ absurd h hcleans
    · rw [Project.step, deleteChat_of_not_cleans hcleans]
      exact .refl _
    · rintro _ _ _ ⟨⟩ hreported
      exact absurd hreported (by rw [hremoved]; exact Bool.false_ne_true)

theorem stepKeeps_iff (p : Project) (event : WorktreeEvent) :
    StepKeeps p event ↔ KeepsWork p event := by
  cases event with
  | createWorktree owner faults =>
    exact iff_of_true ⟨keeps_createWorktree p owner faults, nofun⟩ trivial
  | removeWorktree path branch faults => exact stepKeeps_removeWorktree_iff p path branch faults
  | cleanupIfClean path branch faults => exact stepKeeps_cleanupIfClean_iff p path branch faults
  | deleteChat path branch faults later =>
    exact stepKeeps_deleteChat_iff p path branch faults later

/-! ## Runs -/

/-- A run loses no work exactly when its steps do not. -/
theorem noWorkLost_iff_steps (p : Project) (events : List WorktreeEvent) :
    NoWorkLost p events ↔ Disciplined Project.step StepKeeps p events := by
  induction events generalizing p with
  | nil =>
    refine iff_of_true ⟨?_, ?_⟩ trivial
    · intro before middle hprefix
      obtain ⟨rfl, rfl⟩ := List.append_eq_nil_iff.mp (List.prefix_nil.mp hprefix)
      exact .refl _
    · intro before event path branch faults hprefix
      have hnil := List.prefix_nil.mp hprefix
      exact absurd hnil (List.append_ne_nil_of_right_ne_nil before (List.cons_ne_nil _ _))
  | cons event events ih =>
    rw [disciplined_cons, ← ih]
    constructor
    · intro h
      refine ⟨⟨h.keeps [] [event] ⟨events, rfl⟩, ?_⟩, ⟨?_, ?_⟩⟩
      · exact fun path branch faults ↦ h.truthful [] event path branch faults ⟨events, rfl⟩
      · intro before middle hprefix
        exact h.keeps (event :: before) middle (List.cons_prefix_cons.mpr ⟨rfl, hprefix⟩)
      · intro before other path branch faults hprefix
        exact h.truthful (event :: before) other path branch faults
          (List.cons_prefix_cons.mpr ⟨rfl, hprefix⟩)
    · rintro ⟨hfirst, hrest⟩
      constructor
      · intro before middle hprefix
        cases before with
        | cons other before =>
          obtain ⟨rfl, htail⟩ := List.cons_prefix_cons.mp hprefix
          exact hrest.keeps before middle htail
        | nil =>
          cases middle with
          | nil => exact .refl _
          | cons other middle =>
            obtain ⟨rfl, htail⟩ := List.cons_prefix_cons.mp hprefix
            exact hfirst.keeps.trans (hrest.keeps [] middle htail)
      · intro before other path branch faults hprefix
        cases before with
        | cons first before =>
          obtain ⟨rfl, htail⟩ := List.cons_prefix_cons.mp hprefix
          exact hrest.truthful before other path branch faults htail
        | nil =>
          obtain ⟨rfl, -⟩ := List.cons_prefix_cons.mp hprefix
          exact hfirst.truthful path branch faults

/-- From any state of the repository and the disk, a run without force loses no work and reports no
removal that did not happen exactly when every step of it deletes only merged refs and directories
without files, and every cleanup that goes on can remove the worktree. -/
theorem no_work_lost_iff (p : Project) (events : List WorktreeEvent) :
    NoWorkLost p events ↔ Disciplined Project.step KeepsWork p events := by
  rw [noWorkLost_iff_steps]
  exact disciplined_congr (fun _ _ _ ↦ trivial) (fun p event (_ : True) ↦ stepKeeps_iff p event)
    trivial events

/-- A project whose chat 1 has committed in its worktree. -/
def committed (directory : Directory String) : Project where
  path := "/p"
  repository :=
    { parents := fun commit ↦ if commit = 1 then [0] else []
      branches := (JsMap.empty.set "main" 0).set "flockctl/chat-1" 1
      head := .branch "main"
      worktrees := JsMap.empty.set "/p/.flockctl/worktrees/chat-1" ⟨.branch "flockctl/chat-1", false⟩
      directories := JsMap.empty.set "/p/.flockctl/worktrees/chat-1" directory }

/-- Where only `main` is left, the commit of the chat is not reachable any more. -/
theorem not_reachable_of_main {r : ProjectRepository}
    (hparents : r.parents = fun commit ↦ if commit = 1 then [0] else [])
    (hbranches : r.branches.entries = [("main", 0)]) (hother : r.otherRefs = [])
    (hhead : r.head = .branch "main") (hworktrees : r.worktrees.entries = []) :
    ¬r.Reachable 1 := by
  rintro ⟨tip, htip, hpath⟩
  have hzero : tip = 0 := by
    cases htip with
    | @branch name _ hname =>
      have hmem := (JsMap.mem_entries_iff _ _ _).mpr hname
      rw [hbranches, List.mem_singleton] at hmem
      exact (Prod.mk.inj hmem).2
    | other hmem => simp [hother] at hmem
    | head hdetached => cases hdetached.symm.trans hhead
    | @worktree path worktree _ hregistered _ =>
      have hmem := (JsMap.mem_entries_iff _ _ _).mpr hregistered
      simp [hworktrees] at hmem
  subst hzero
  rcases Relation.ReflTransGen.cases_head hpath with hsame | ⟨parent, hparent, -⟩
  · cases hsame
  · simp [hparents] at hparent

/-- Ending the session of a clean worktree loses its commits and its ignored files; a directory that
is no worktree any more is reported as removed. -/
theorem work_lost :
    ¬NoWorkLost (committed {})
      [.cleanupIfClean "/p/.flockctl/worktrees/chat-1" "flockctl/chat-1" {}] ∧
    ¬NoWorkLost (committed { ignored := [".env"] })
      [.cleanupIfClean "/p/.flockctl/worktrees/chat-1" "flockctl/chat-1" {}] ∧
    ¬NoWorkLost (committed { isWorkTree := false, changes := ["notes.md"] })
      [.cleanupIfClean "/p/.flockctl/worktrees/chat-1" "flockctl/chat-1" {}] := by
  refine ⟨fun h ↦ ?_, fun h ↦ ?_, fun h ↦ ?_⟩
  · have hkeeps := h.keeps [] _ (List.prefix_refl _)
    have hname : (committed {}).repository.branches.get "flockctl/chat-1" = some 1 := by
      decide +kernel
    refine not_reachable_of_main rfl ?_ rfl rfl ?_ (hkeeps.commits 1 (.of_tip (.branch hname)))
    · decide +kernel
    · decide +kernel
  · have hkeeps := h.keeps [] _ (List.prefix_refl _)
    have hdirectory : (committed { ignored := [".env"] }).repository.directories.get
        "/p/.flockctl/worktrees/chat-1" = some { ignored := [".env"] } := by
      decide +kernel
    obtain ⟨directory, hkept, -⟩ :=
      hkeeps.files "/p/.flockctl/worktrees/chat-1" ".env" ⟨_, hdirectory, by simp⟩
    have hgone : (run Project.step (committed { ignored := [".env"] })
        [.cleanupIfClean "/p/.flockctl/worktrees/chat-1" "flockctl/chat-1" {}]
        ).repository.directories.get "/p/.flockctl/worktrees/chat-1" = none := by
      decide +kernel
    cases hkept.symm.trans hgone
  · have hgone := h.truthful [] _ "/p/.flockctl/worktrees/chat-1" "flockctl/chat-1" {}
      (List.prefix_refl _) rfl (by decide +kernel)
    revert hgone
    unfold IsGone
    decide +kernel

end Flockctl.Worktrees
