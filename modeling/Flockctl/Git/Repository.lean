import Flockctl.Collections.JsMap
import Mathlib.Logic.Relation

/-!
# Repositories with linked worktrees

A repository has commits with parents, branches and other refs that name commits, a main worktree
and linked ones, which are registered under their paths. A head is on a branch or on a commit. The
commands are those for worktrees and branches, with the conditions under which they refuse; any of
them may also fail for a reason outside of the repository.
-/

namespace Flockctl.Git

open Collections

universe u v w

abbrev Commit := ℕ

inductive Head (Branch : Type u)
  | branch (name : Branch)
  | detached (commit : Commit)
  deriving DecidableEq, Repr

/-- The registration of a linked worktree. -/
structure Worktree (Branch : Type u) where
  head : Head Branch
  locked : Bool := false
  deriving DecidableEq, Repr

/-- A directory on disk: whether it has the link to its repository, the files `status` reports, the
ignored files, and whether `status` fails in it. -/
structure Directory (File : Type u) where
  isWorkTree : Bool := true
  changes : List File := []
  ignored : List File := []
  statusFails : Bool := false
  deriving DecidableEq, Repr

/-- `otherRefs` are the commits that tags, remote branches and the like name. -/
structure Repository (Path : Type u) (Branch : Type v) (File : Type w) where
  parents : Commit → List Commit
  branches : JsMap Branch Commit
  otherRefs : List Commit := []
  head : Head Branch
  worktrees : JsMap Path (Worktree Branch) := JsMap.empty
  directories : JsMap Path (Directory File) := JsMap.empty

namespace Repository

variable {Path : Type u} {Branch : Type v} {File : Type w} [DecidableEq Path] [DecidableEq Branch]

section

variable (r : Repository Path Branch File)

/-- The commit is named by a ref. -/
inductive Tip : Commit → Prop
  | branch {name : Branch} {commit : Commit} (hname : r.branches.get name = some commit) :
      Tip commit
  | other {commit : Commit} (hmem : commit ∈ r.otherRefs) : Tip commit
  | head {commit : Commit} (hhead : r.head = .detached commit) : Tip commit
  | worktree {path : Path} {worktree : Worktree Branch} {commit : Commit}
      (hpath : r.worktrees.get path = some worktree) (hhead : worktree.head = .detached commit) :
      Tip commit

/-- The commit is an ancestor of one that a ref names, or is one. -/
def Reachable (commit : Commit) : Prop :=
  ∃ tip, r.Tip tip ∧ Relation.ReflTransGen (fun child parent ↦ parent ∈ r.parents child) tip commit

/-- The uncommitted files of a directory. -/
def hasFile (path : Path) (file : File) : Prop :=
  ∃ directory, r.directories.get path = some directory ∧
    file ∈ directory.changes ++ directory.ignored

/-- `rev-parse --verify HEAD`. -/
def headCommit : Option Commit :=
  match r.head with
  | .branch name => r.branches.get name
  | .detached commit => some commit

def isCheckedOut (branch : Branch) : Bool :=
  r.head == .branch branch || r.worktrees.entries.any fun entry ↦ entry.2.head == .branch branch

/-- `status --porcelain` in a directory. -/
def status (fails : Bool) (path : Path) : Option (List File) :=
  match r.directories.get path with
  | none => none
  | some directory => if fails || directory.statusFails then none else some directory.changes

/-- `worktree remove` refuses a worktree that is locked or not registered and, without `--force`,
one that is not clean. -/
def canRemove (force : Bool) (path : Path) : Bool :=
  match r.worktrees.get path, r.directories.get path with
  | some worktree, some directory =>
    !worktree.locked && directory.isWorkTree &&
      (force || (!directory.statusFails && directory.changes.isEmpty))
  | _, _ => false

/-- `worktree remove`, which deletes the ignored files as well. -/
def worktreeRemove (fails force : Bool) (path : Path) : Repository Path Branch File :=
  if !fails && r.canRemove force path then
    { r with worktrees := r.worktrees.delete path, directories := r.directories.delete path }
  else r

/-- A registration is stale when the link in its directory is gone. -/
def isStale (path : Path) (worktree : Worktree Branch) : Bool :=
  !worktree.locked &&
    match r.directories.get path with
    | none => true
    | some directory => !directory.isWorkTree

/-- `worktree prune`. -/
def worktreePrune (fails : Bool) : Repository Path Branch File :=
  if fails then r
  else { r with worktrees := r.worktrees.filter fun path worktree ↦ !r.isStale path worktree }

/-- `branch -D` refuses a branch that is checked out. -/
def branchDelete (fails : Bool) (branch : Branch) : Repository Path Branch File :=
  if fails || r.isCheckedOut branch then r
  else { r with branches := r.branches.delete branch }

/-- A new worktree at a path, with its head on a branch. -/
def addWorktree (path : Path) (branch : Branch) : Repository Path Branch File :=
  { r with
    worktrees := r.worktrees.set path ⟨.branch branch, false⟩
    directories := r.directories.set path {} }

def isFreePath (path : Path) : Bool := !r.directories.has path && !r.worktrees.has path

/-- `worktree add <path> <branch>`. -/
def worktreeAdd (fails : Bool) (path : Path) (branch : Branch) :
    Option (Repository Path Branch File) :=
  if !fails && r.isFreePath path && r.branches.has branch && !r.isCheckedOut branch then
    some (r.addWorktree path branch)
  else none

/-- `worktree add -b <branch> <path> HEAD`. -/
def worktreeAddNew (fails : Bool) (path : Path) (branch : Branch) :
    Option (Repository Path Branch File) :=
  if !fails && r.isFreePath path && !r.branches.has branch then
    r.headCommit.map fun commit ↦
      { r with branches := r.branches.set branch commit }.addWorktree path branch
  else none

end

/-- No reachable commit and no uncommitted file is lost. -/
structure Keeps (r next : Repository Path Branch File) : Prop where
  commits : ∀ commit, r.Reachable commit → next.Reachable commit
  files : ∀ path file, r.hasFile path file → next.hasFile path file

theorem Keeps.refl (r : Repository Path Branch File) : Keeps r r := ⟨fun _ ↦ id, fun _ _ ↦ id⟩

theorem Keeps.trans {r next last : Repository Path Branch File} (h : Keeps r next)
    (hlast : Keeps next last) : Keeps r last where
  commits commit hcommit := hlast.commits commit (h.commits commit hcommit)
  files path file hfile := hlast.files path file (h.files path file hfile)

/-- The refs and directories of the second repository are those of the first. -/
structure Drops (r next : Repository Path Branch File) : Prop where
  parents : next.parents = r.parents
  otherRefs : next.otherRefs = r.otherRefs
  head : next.head = r.head
  branches : ∀ name commit, next.branches.get name = some commit →
    r.branches.get name = some commit
  worktrees : ∀ path worktree, next.worktrees.get path = some worktree →
    r.worktrees.get path = some worktree
  directories : ∀ path directory, next.directories.get path = some directory →
    r.directories.get path = some directory

/-- The refs that go name commits that are reachable without them. -/
structure MergesDropped (r next : Repository Path Branch File) : Prop where
  branches : ∀ name commit, r.branches.get name = some commit → next.branches.get name = none →
    next.Reachable commit
  worktrees : ∀ path worktree commit, r.worktrees.get path = some worktree →
    worktree.head = .detached commit → next.worktrees.get path = none → next.Reachable commit

section

variable {r next last : Repository Path Branch File}

theorem Drops.refl (r : Repository Path Branch File) : Drops r r :=
  ⟨rfl, rfl, rfl, fun _ _ ↦ id, fun _ _ ↦ id, fun _ _ ↦ id⟩

theorem Drops.trans (h : Drops r next) (hlast : Drops next last) :
    Drops r last where
  parents := hlast.parents.trans h.parents
  otherRefs := hlast.otherRefs.trans h.otherRefs
  head := hlast.head.trans h.head
  branches name commit hname := h.branches name commit (hlast.branches name commit hname)
  worktrees path worktree hpath := h.worktrees path worktree (hlast.worktrees path worktree hpath)
  directories path directory hpath :=
    h.directories path directory (hlast.directories path directory hpath)

theorem Reachable.of_tip {tip : Commit} (htip : r.Tip tip) : r.Reachable tip :=
  ⟨tip, htip, .refl⟩

/-- Where every ref's commit stays reachable, every reachable commit does. -/
theorem reachable_of_tips (hparents : next.parents = r.parents)
    (htips : ∀ tip, r.Tip tip → next.Reachable tip) {commit : Commit}
    (hcommit : r.Reachable commit) : next.Reachable commit := by
  obtain ⟨tip, htip, hpath⟩ := hcommit
  obtain ⟨kept, hkept, hfrom⟩ := htips tip htip
  rw [← hparents] at hpath
  exact ⟨kept, hkept, hfrom.trans hpath⟩

/-- Nothing becomes reachable when refs go. -/
theorem Drops.reachable (h : Drops r next) {commit : Commit} (hcommit : next.Reachable commit) :
    r.Reachable commit := by
  refine reachable_of_tips h.parents.symm ?_ hcommit
  intro tip htip
  cases htip with
  | branch hname => exact .of_tip (.branch (h.branches _ _ hname))
  | other hmem => exact .of_tip (.other (h.otherRefs ▸ hmem))
  | head hhead => exact .of_tip (.head (h.head ▸ hhead))
  | worktree hpath hhead => exact .of_tip (.worktree (h.worktrees _ _ hpath) hhead)

theorem Drops.hasFile (h : Drops r next) {path : Path} {file : File}
    (hfile : next.hasFile path file) : r.hasFile path file := by
  obtain ⟨directory, hdirectory, hmem⟩ := hfile
  exact ⟨directory, h.directories path directory hdirectory, hmem⟩

/-- No registration becomes sound when directories go. -/
theorem Drops.isStale (h : Drops r next) {path : Path} {worktree : Worktree Branch}
    (hstale : next.isStale path worktree = false) : r.isStale path worktree = false := by
  unfold Repository.isStale at hstale ⊢
  cases hlocked : worktree.locked with
  | true => rfl
  | false =>
    rw [hlocked] at hstale
    cases hdirectory : next.directories.get path with
    | none => simp [hdirectory] at hstale
    | some directory =>
      rw [h.directories path directory hdirectory]
      rwa [hdirectory] at hstale

/-- Two steps that drop something lose nothing together exactly when neither does. -/
theorem Drops.keeps_iff (h : Drops r next) (hlast : Drops next last) :
    Keeps r last ↔ Keeps r next ∧ Keeps next last := by
  refine ⟨fun hkeeps ↦ ⟨⟨?_, ?_⟩, ⟨?_, ?_⟩⟩, fun hboth ↦ hboth.1.trans hboth.2⟩
  · exact fun commit hcommit ↦ hlast.reachable (hkeeps.commits commit hcommit)
  · exact fun path file hfile ↦ hlast.hasFile (hkeeps.files path file hfile)
  · exact fun commit hcommit ↦ hkeeps.commits commit (h.reachable hcommit)
  · exact fun path file hfile ↦ hkeeps.files path file (h.hasFile hfile)

/-- Dropping refs keeps the reachable commits exactly when the refs that go are merged. -/
theorem Drops.reachable_iff (h : Drops r next) :
    (∀ commit, r.Reachable commit → next.Reachable commit) ↔ MergesDropped r next := by
  constructor
  · intro hall
    refine ⟨fun name commit hname _ ↦ ?_, fun path worktree commit hpath hhead _ ↦ ?_⟩
    · exact hall commit (.of_tip (.branch hname))
    · exact hall commit (.of_tip (.worktree hpath hhead))
  · intro hmerged commit hcommit
    refine reachable_of_tips h.parents ?_ hcommit
    intro tip htip
    cases htip with
    | @branch name _ hname =>
      cases hkept : next.branches.get name with
      | none => exact hmerged.branches name tip hname hkept
      | some kept =>
        have hsame := Option.some.inj ((h.branches name kept hkept).symm.trans hname)
        exact .of_tip (.branch (hsame ▸ hkept))
    | other hmem => exact .of_tip (.other (h.otherRefs ▸ hmem))
    | head hhead => exact .of_tip (.head (h.head.trans hhead))
    | @worktree path worktree _ hpath hhead =>
      cases hkept : next.worktrees.get path with
      | none => exact hmerged.worktrees path worktree tip hpath hhead hkept
      | some kept =>
        have hsame := Option.some.inj ((h.worktrees path kept hkept).symm.trans hpath)
        exact .of_tip (.worktree hkept (hsame ▸ hhead))

theorem drops_worktreeRemove (fails force : Bool) (path : Path) :
    Drops r (r.worktreeRemove fails force path) := by
  unfold worktreeRemove
  split
  · refine ⟨rfl, rfl, rfl, fun _ _ ↦ id, ?_, ?_⟩
    · intro other worktree hother
      exact (JsMap.get_delete_eq_some_iff.mp hother).2
    · intro other directory hother
      exact (JsMap.get_delete_eq_some_iff.mp hother).2
  · exact .refl r

theorem drops_worktreePrune (fails : Bool) : Drops r (r.worktreePrune fails) := by
  unfold worktreePrune
  split
  · exact .refl r
  · refine ⟨rfl, rfl, rfl, fun _ _ ↦ id, ?_, fun _ _ ↦ id⟩
    intro path worktree hpath
    rw [JsMap.get_filter, Option.filter_eq_some_iff] at hpath
    exact hpath.1

theorem drops_branchDelete (fails : Bool) (branch : Branch) :
    Drops r (r.branchDelete fails branch) := by
  unfold branchDelete
  split
  · exact .refl r
  · refine ⟨rfl, rfl, rfl, ?_, fun _ _ ↦ id, fun _ _ ↦ id⟩
    intro name commit hname
    exact (JsMap.get_delete_eq_some_iff.mp hname).2

omit [DecidableEq Branch] in
@[simp] theorem directories_worktreePrune (fails : Bool) :
    (r.worktreePrune fails).directories = r.directories := by
  unfold worktreePrune
  split <;> rfl

omit [DecidableEq Path] in
@[simp] theorem directories_branchDelete (fails : Bool) (branch : Branch) :
    (r.branchDelete fails branch).directories = r.directories := by
  unfold branchDelete
  split <;> rfl

omit [DecidableEq Path] in
@[simp] theorem worktrees_branchDelete (fails : Bool) (branch : Branch) :
    (r.branchDelete fails branch).worktrees = r.worktrees := by
  unfold branchDelete
  split <;> rfl

omit [DecidableEq Branch] in
/-- Where directories are the same, so are the uncommitted files. -/
theorem hasFile_congr (hdirectories : next.directories = r.directories) (path : Path) (file : File) :
    next.hasFile path file ↔ r.hasFile path file := by
  unfold hasFile
  rw [hdirectories]

omit [DecidableEq Branch] in
/-- A removal loses no file exactly when the directory, if it goes, has none. -/
theorem files_worktreeRemove_iff (fails force : Bool) (path : Path) :
    (∀ other file, r.hasFile other file → (r.worktreeRemove fails force path).hasFile other file) ↔
      (fails = false → r.canRemove force path = true → ∀ file, ¬r.hasFile path file) := by
  unfold worktreeRemove
  split
  · rename_i hremoves
    rw [Bool.and_eq_true, Bool.not_eq_true'] at hremoves
    constructor
    · intro hkept _ _ file hfile
      obtain ⟨directory, hdirectory, -⟩ := hkept path file hfile
      exact (JsMap.get_delete_eq_some_iff.mp hdirectory).1 rfl
    · rintro hnone other file ⟨directory, hdirectory, hmem⟩
      refine ⟨directory, ?_, hmem⟩
      refine JsMap.get_delete_eq_some_iff.mpr ⟨?_, hdirectory⟩
      rintro rfl
      exact hnone hremoves.1 hremoves.2 file ⟨directory, hdirectory, hmem⟩
  · rename_i hrefuses
    refine ⟨fun _ hfails hcan ↦ ?_, fun _ _ _ ↦ id⟩
    exact absurd (by rw [hfails, hcan]; rfl) hrefuses

/-- A new worktree loses nothing. -/
theorem keeps_addWorktree {path : Path} {branch : Branch} (hfree : r.isFreePath path = true) :
    Keeps r (r.addWorktree path branch) := by
  have habsent : r.directories.get path = none ∧ r.worktrees.get path = none := by
    simpa [isFreePath, JsMap.has] using hfree
  constructor
  · intro commit hcommit
    have hparents : (r.addWorktree path branch).parents = r.parents := rfl
    refine reachable_of_tips hparents ?_ hcommit
    intro tip htip
    cases htip with
    | branch hname => exact .of_tip (.branch hname)
    | other hmem => exact .of_tip (.other hmem)
    | head hhead => exact .of_tip (.head hhead)
    | @worktree other worktree _ hother hhead =>
      have hne : other ≠ path := by
        rintro rfl
        cases hother.symm.trans habsent.2
      exact .of_tip (.worktree ((JsMap.get_set_of_ne _ _ hne).trans hother) hhead)
  · rintro other file ⟨directory, hdirectory, hmem⟩
    have hne : other ≠ path := by
      rintro rfl
      cases hdirectory.symm.trans habsent.1
    exact ⟨directory, (JsMap.get_set_of_ne _ _ hne).trans hdirectory, hmem⟩

/-- A new branch loses nothing. -/
theorem keeps_setBranch {branch : Branch} (commit : Commit)
    (hfree : r.branches.has branch = false) :
    Keeps r { r with branches := r.branches.set branch commit } := by
  have hparents : { r with branches := r.branches.set branch commit }.parents = r.parents := rfl
  refine ⟨fun _ hcommit ↦ reachable_of_tips hparents ?_ hcommit, fun _ _ ↦ id⟩
  intro tip htip
  cases htip with
  | @branch name _ hname =>
    have hne : name ≠ branch := by
      rintro rfl
      simp [JsMap.has, hname] at hfree
    exact .of_tip (.branch ((JsMap.get_set_of_ne _ _ hne).trans hname))
  | other hmem => exact .of_tip (.other hmem)
  | head hhead => exact .of_tip (.head hhead)
  | worktree hpath hhead => exact .of_tip (.worktree hpath hhead)

theorem keeps_worktreeAdd {fails : Bool} {path : Path} {branch : Branch}
    (hadd : r.worktreeAdd fails path branch = some next) : Keeps r next := by
  unfold worktreeAdd at hadd
  split at hadd
  · rename_i hallowed
    cases hadd
    simp only [Bool.and_eq_true] at hallowed
    exact keeps_addWorktree hallowed.1.1.2
  · cases hadd

theorem keeps_worktreeAddNew {fails : Bool} {path : Path} {branch : Branch}
    (hadd : r.worktreeAddNew fails path branch = some next) : Keeps r next := by
  unfold worktreeAddNew at hadd
  split at hadd
  · rename_i hallowed
    obtain ⟨commit, -, rfl⟩ := Option.map_eq_some_iff.mp hadd
    simp only [Bool.and_eq_true, Bool.not_eq_true'] at hallowed
    exact (keeps_setBranch commit hallowed.2).trans (keeps_addWorktree hallowed.1.2)
  · cases hadd

end

end Repository

end Flockctl.Git
