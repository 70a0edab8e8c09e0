import Flockctl.Collections.JsMap
import Flockctl.Encoding.Percent
import Flockctl.Files.Calls
import Flockctl.Paths.Containment

/-!
# The jail of the file service

Requests name a file by a path text relative to an entity root. `resolveSafePath` takes the text
against the root and keeps to the paths below it, which is a matter of the texts alone. A read goes
on to compare the canonical path of what it has found with the canonical path of the root, so it
answers only for what is below the root once all links have been followed.
-/

namespace Flockctl.FsOperations

open Collections Encoding Files Paths

/-- A name of the file system: at most 255 bytes, none of them NUL. -/
structure FileName where
  text : Segment
  isName : Segment.IsName text
  noNul : '\x00' ∉ text
  short : (encode text).length ≤ 255
  deriving DecidableEq

/-- The step that a segment of a path is for the file system. -/
def stepOf (segment : Segment) : Step FileName :=
  if isName : Segment.IsName segment then
    if noNul : '\x00' ∉ segment then
      if short : (encode segment).length ≤ 255 then .child ⟨segment, isName, noNul, short⟩
      else .unusable .ENAMETOOLONG
    else .unusable .ERR_INVALID_ARG_VALUE
  else if segment = ['.', '.'] then .parent
  else .self

theorem stepOf_text (name : FileName) : stepOf name.text = .child name := by
  rw [stepOf, dif_pos name.isName, dif_pos name.noNul, dif_pos name.short]

theorem text_of_stepOf {segment : Segment} {name : FileName} (h : stepOf segment = .child name) :
    name.text = segment := by
  unfold stepOf at h
  split at h
  · split at h
    · split at h
      · cases h
        rfl
      · cases h
    · cases h
  · split at h
    · cases h
    · cases h

/-- The steps of a path. -/
def steps (path : AbsolutePath) : List (Step FileName) := path.segments.map stepOf

/-- The path of a location. -/
def pathOf (location : Location FileName) : AbsolutePath where
  segments := location.reverse.map FileName.text
  names segment hsegment := by
    obtain ⟨name, -, rfl⟩ := List.mem_map.mp hsegment
    exact name.isName

theorem steps_pathOf (location : Location FileName) :
    steps (pathOf location) = Tree.pathTo location := by
  rw [steps, pathOf, Tree.pathTo, List.map_map]
  congr 1
  funext name
  exact stepOf_text name

theorem text_injective : Function.Injective FileName.text := by
  rintro ⟨text, _, _, _⟩ ⟨_, _, _, _⟩ rfl
  rfl

abbrev FileTree := Tree FileName (List UInt8)

/-- What the service runs on: its working directory, the numbers of links that a system call and
`realpath` follow, the directories it may read, and the hash and the collation of its runtime. -/
structure Host where
  cwd : AbsolutePath
  links : ℕ
  realpathLinks : ℕ
  mayList : Location FileName → Bool
  sha256 : List UInt8 → String
  /-- whether `a.localeCompare(b) <= 0`, letter case aside -/
  collate : Segment → Segment → Bool

inductive FsErrorCode
  | fs_no_path
  | fs_invalid_path
  | fs_path_outside_root
  | fs_not_found
  | fs_not_a_directory
  | fs_permission_denied
  | fs_internal_error
  | fs_path_outside_project
  | fs_too_large
  | fs_binary
  | fs_no_project_path
  | fs_io_error
  | fs_missing_path
  | fs_invalid_range
  | fs_sha_conflict
  | fs_invalid_name
  | fs_already_exists
  | fs_not_empty
  deriving DecidableEq

structure FsFailure where
  errorCode : FsErrorCode
  message : String
  /-- only in a conflict -/
  currentSha : Option String := none
  deriving DecidableEq

/-- The text of an error of the system, which names its code. -/
def Errno.message : Errno → String
  | .ENOENT => "ENOENT"
  | .ENOTDIR => "ENOTDIR"
  | .EISDIR => "EISDIR"
  | .EEXIST => "EEXIST"
  | .ENOTEMPTY => "ENOTEMPTY"
  | .ELOOP => "ELOOP"
  | .ENAMETOOLONG => "ENAMETOOLONG"
  | .EINVAL => "EINVAL"
  | .EBUSY => "EBUSY"
  | .EACCES => "EACCES"
  | .EPERM => "EPERM"
  | .ENOSPC => "ENOSPC"
  | .ERR_INVALID_ARG_VALUE => "ERR_INVALID_ARG_VALUE"

structure SafePath where
  absolute : AbsolutePath
  relative : List Char

/-- `path.resolve(root)`. -/
def Host.absoluteRoot (host : Host) (root : String) : AbsolutePath := resolve host.cwd root

/-- The trimmed text, where an empty one stands for the root itself. -/
def candidateOf (relPath : String) : String :=
  if trim relPath.toList = [] then "." else String.ofList (trim relPath.toList)

/-- A path below the root, with the names that lead there. -/
def SafePath.of (absoluteRoot joined : AbsolutePath) : SafePath where
  absolute := joined
  relative :=
    if Paths.relative absoluteRoot joined = [] then ['.'] else Paths.relative absoluteRoot joined

def resolveSafePath (host : Host) (root relPath : String) : Except FsFailure SafePath :=
  if root = "" then .error { errorCode := .fs_no_path, message := "no root configured" }
  else if isAbsolute (candidateOf relPath) then
    .error { errorCode := .fs_invalid_path, message := "path must be relative to the entity root" }
  else if '\x00' ∈ (candidateOf relPath).toList then
    .error { errorCode := .fs_invalid_path, message := "path contains NUL byte" }
  else if isWithin (host.absoluteRoot root)
      (resolve (host.absoluteRoot root) (candidateOf relPath)) then
    .ok (.of (host.absoluteRoot root) (resolve (host.absoluteRoot root) (candidateOf relPath)))
  else .error { errorCode := .fs_path_outside_root, message := "path escapes the entity root" }

theorem intercalate_eq_nil_iff {segments : List Segment}
    (hnames : ∀ name ∈ segments, Segment.IsName name) :
    ['/'].intercalate segments = [] ↔ segments = [] := by
  constructor
  · intro h
    cases segments with
    | nil => rfl
    | cons first rest =>
      have hslashed := cons_intercalate first rest
      rw [h, slashed_cons, List.cons_eq_cons] at hslashed
      exact absurd (List.append_eq_nil_iff.mp hslashed.2.symm).1
        (hnames first List.mem_cons_self).1
  · rintro rfl
    rfl

/-- No relative path below the root is a dot. -/
theorem intercalate_ne_dot {segments : List Segment}
    (hnames : ∀ name ∈ segments, Segment.IsName name) (hsegments : segments ≠ []) :
    ['/'].intercalate segments ≠ ['.'] := by
  obtain ⟨first, rest, rfl⟩ := List.exists_cons_of_ne_nil hsegments
  cases rest with
  | nil =>
    rw [List.intercalate_singleton]
    exact (hnames first List.mem_cons_self).2.1
  | cons second rest =>
    rw [List.intercalate_cons_cons]
    intro h
    have hslash : '/' ∈ ['.'] := by
      rw [← h]
      simp
    revert hslash
    decide

/-- What is safe lies below the root, and the relative path names the way there. -/
theorem resolveSafePath_eq_ok {host : Host} {root relPath : String} {safe : SafePath}
    (h : resolveSafePath host root relPath = .ok safe) :
    root ≠ "" ∧ isWithin (host.absoluteRoot root) safe.absolute = true ∧
      ∃ rest, safe.absolute.segments = (host.absoluteRoot root).segments ++ rest ∧
        (∀ name ∈ rest, Segment.IsName name) ∧
          safe.relative = if rest = [] then ['.'] else ['/'].intercalate rest := by
  by_cases hroot : root = ""
  · rw [resolveSafePath, if_pos hroot] at h
    cases h
  rw [resolveSafePath, if_neg hroot] at h
  generalize candidateOf relPath = candidate at h
  by_cases habsolute : isAbsolute candidate = true
  · rw [if_pos habsolute] at h
    cases h
  rw [if_neg habsolute] at h
  by_cases hnul : '\x00' ∈ candidate.toList
  · rw [if_pos hnul] at h
    cases h
  rw [if_neg hnul] at h
  by_cases hwithin : isWithin (host.absoluteRoot root)
      (resolve (host.absoluteRoot root) candidate) = true
  · rw [if_pos hwithin] at h
    cases h
    obtain ⟨rest, hrest⟩ := segments_of_isWithin hwithin
    have hnames : ∀ name ∈ rest, Segment.IsName name := by
      intro name hname
      apply AbsolutePath.names _ name
      rw [← hrest]
      exact List.mem_append_right _ hname
    refine ⟨hroot, hwithin, rest, hrest.symm, hnames, ?_⟩
    simp only [SafePath.of, relative_eq hrest.symm, intercalate_eq_nil_iff hnames]
  · rw [if_neg hwithin] at h
    cases h

/-- `realpathSync(path)`. -/
def realpath (host : Host) (tree : FileTree) (path : AbsolutePath) : Except Errno AbsolutePath :=
  (tree.stat host.realpathLinks (steps path)).map pathOf

abbrev RealRoots := JsMap String AbsolutePath

def REAL_ROOT_CACHE_MAX : ℕ := 256

def getRealRoot (host : Host) (tree : FileTree) (realRootCache : RealRoots) (root : String) :
    Option AbsolutePath × RealRoots :=
  match realRootCache.get root with
  | some cached => (some cached, (realRootCache.delete root).set root cached)
  | none =>
    match realpath host tree (host.absoluteRoot root) with
    | .error _ => (none, realRootCache)
    | .ok real =>
      let kept :=
        if REAL_ROOT_CACHE_MAX ≤ realRootCache.size then
          match realRootCache.keys.head? with
          | some firstKey => realRootCache.delete firstKey
          | none => realRootCache
        else realRootCache
      (some real, kept.set root real)

/-- A path with a name added. -/
def join (path : AbsolutePath) (name : Segment) (isName : Segment.IsName name) : AbsolutePath where
  segments := path.segments ++ [name]
  names segment hsegment := by
    rcases List.mem_append.mp hsegment with hold | hnew
    · exact path.names segment hold
    · rw [List.mem_singleton.mp hnew]
      exact isName

/-- The names of a path that are given innermost first. -/
def ofReversed (segments : List Segment) (names : ∀ name ∈ segments, Segment.IsName name) :
    AbsolutePath where
  segments := segments.reverse
  names segment hsegment := names segment (List.mem_reverse.mp hsegment)

/-- `deepRealpath` on the names of a path, innermost first. -/
def deepRealpathFrom (host : Host) (tree : FileTree) : (segments : List Segment) →
    (∀ name ∈ segments, Segment.IsName name) → Except Errno AbsolutePath
  | [], names => realpath host tree (ofReversed [] names)
  | base :: parent, names =>
    match realpath host tree (ofReversed (base :: parent) names) with
    | .ok real => .ok real
    | .error error =>
      if error ≠ .ENOENT ∧ error ≠ .ENOTDIR then .error error
      else
        (deepRealpathFrom host tree parent fun name hname ↦
          names name (List.mem_cons_of_mem base hname)).map fun real ↦
            join real base (names base List.mem_cons_self)

def deepRealpath (host : Host) (tree : FileTree) (path : AbsolutePath) :
    Except Errno AbsolutePath :=
  deepRealpathFrom host tree path.segments.reverse fun name hname ↦
    path.names name (List.mem_reverse.mp hname)

theorem steps_append (path : AbsolutePath) {front back : List Segment}
    (h : path.segments = front ++ back) :
    steps path = front.map stepOf ++ back.map stepOf := by
  rw [steps, h, List.map_append]

theorem steps_join (path : AbsolutePath) {name : Segment} (isName : Segment.IsName name) :
    steps (join path name isName) = steps path ++ [stepOf name] := by
  rw [steps_append (join path name isName) rfl]
  rfl

/-- What `realpath` gives is a path without links, which leads to the same place. -/
theorem stat_of_realpath {host : Host} {tree : FileTree} {path real : AbsolutePath}
    (h : realpath host tree path = .ok real) :
    ∃ location, real = pathOf location ∧ tree.Stands location ∧
      tree.stat host.realpathLinks (steps path) = .ok location ∧
      ∀ links, tree.stat links (steps real) = .ok location := by
  cases hwalk : tree.stat host.realpathLinks (steps path) with
  | error error =>
    rw [realpath, hwalk] at h
    cases h
  | ok location =>
    rw [realpath, hwalk] at h
    cases h
    have hstands : tree.Stands location := Tree.stands_of_walk (Or.inl tree.rooted) hwalk
    refine ⟨location, rfl, hstands, rfl, fun links ↦ ?_⟩
    rw [steps_pathOf]
    exact Tree.walk_pathTo_self hstands links

/-- The path that `deepRealpath` gives leads somewhere only if it is the canonical path. -/
theorem stat_deepRealpathFrom {host : Host} {tree : FileTree} {segments : List Segment}
    {names : ∀ name ∈ segments, Segment.IsName name} {canonical : AbsolutePath}
    {location : Location FileName} (h : deepRealpathFrom host tree segments names = .ok canonical)
    (hstat : tree.stat host.links (steps canonical) = .ok location) :
    realpath host tree (ofReversed segments names) = .ok canonical := by
  induction segments generalizing canonical location with
  | nil => exact h
  | cons base parent ih =>
    unfold deepRealpathFrom at h
    split at h
    · rename_i real hfound
      cases h
      exact hfound
    rename_i error hfailed
    split at h
    · cases h
    rename_i hmissing
    exfalso
    cases hparent : deepRealpathFrom host tree parent (fun name hname ↦
      names name (List.mem_cons_of_mem base hname)) with
    | error other =>
      rw [hparent] at h
      cases h
    | ok front =>
      rw [hparent] at h
      cases h
      rw [steps_join] at hstat
      cases hfront : tree.stat host.links (steps front) with
      | error other =>
        rw [Tree.stat, Tree.walk_append_of_error hfront] at hstat
        cases hstat
      | ok directory =>
        -- the parent is canonical, so both walks take the last step from its location
        obtain ⟨found, rfl, hstands, hwalk, hsame⟩ := stat_of_realpath (ih hparent hfront)
        rw [Tree.stat, steps_pathOf, Tree.walk_pathTo hstands] at hstat
        obtain ⟨left, -, hrest⟩ := Tree.walk_append hwalk
        have hlast : tree.stat host.realpathLinks (steps (ofReversed (base :: parent) names)) =
            tree.walk left found [stepOf base] := by
          rw [← hrest, Tree.stat]
          congr 1
          rw [steps_append (ofReversed (base :: parent) names) List.reverse_cons]
          rfl
        have herror : tree.walk left found [stepOf base] = .error error := by
          cases hwhole : tree.stat host.realpathLinks (steps (ofReversed (base :: parent) names)) with
          | ok arrived =>
            rw [realpath, hwhole] at hfailed
            cases hfailed
          | error other =>
            rw [realpath, hwhole] at hfailed
            cases hfailed
            rw [← hlast, hwhole]
        rcases Tree.walk_eq_of_ok hstat left with hok | hloop
        · rw [herror] at hok
          cases hok
        · rw [herror] at hloop
          cases hloop
          simp at hmissing

/-- A read looks at no file but the one its path leads to. -/
theorem stat_deepRealpath {host : Host} {tree : FileTree} {path canonical : AbsolutePath}
    {location : Location FileName} (h : deepRealpath host tree path = .ok canonical)
    (hstat : tree.stat host.links (steps canonical) = .ok location) :
    canonical = pathOf location ∧
      tree.stat host.realpathLinks (steps path) = .ok location := by
  have hreal := stat_deepRealpathFrom h hstat
  obtain ⟨found, rfl, -, hwalk, hsame⟩ := stat_of_realpath hreal
  obtain rfl : found = location := Except.ok.inj ((hsame host.links).symm.trans hstat)
  refine ⟨rfl, ?_⟩
  rw [← hwalk]
  congr 2
  apply AbsolutePath.ext
  exact (List.reverse_reverse path.segments).symm

def mapResolveError (failure : FsFailure) : FsFailure :=
  { errorCode :=
      if failure.errorCode = .fs_no_path then .fs_no_project_path else .fs_path_outside_project
    message := failure.message }

/-- The canonical path of a file and its size. -/
structure Readable where
  canonical : AbsolutePath
  size : ℕ

/-- The checks of a path that has been resolved, up to the `stat` of the file. -/
def statReadable (host : Host) (tree : FileTree) (realRoot absolute : AbsolutePath) :
    Except FsFailure Readable :=
  match deepRealpath host tree absolute with
  | .error error => .error { errorCode := .fs_io_error, message := Errno.message error }
  | .ok canonical =>
    if isWithin realRoot canonical then
      match tree.stat host.links (steps canonical) with
      | .error error =>
        if error = .ENOENT ∨ error = .ENOTDIR then
          .error { errorCode := .fs_not_found, message := "file does not exist" }
        else .error { errorCode := .fs_io_error, message := Errno.message error }
      | .ok location =>
        match tree.node location with
        | some (.file bytes) => .ok { canonical := canonical, size := bytes.length }
        | _ =>
          .error { errorCode := .fs_not_found, message := "path is a directory, not a file" }
    else
      .error
        { errorCode := .fs_path_outside_project
          message := "path escapes project root via symlink" }

/-- `resolveReadablePath`, which `readProjectFile` has a copy of. -/
def resolveReadablePath (host : Host) (tree : FileTree) (realRootCache : RealRoots)
    (root relPath : String) : Except FsFailure Readable × RealRoots :=
  if root = "" then
    (.error { errorCode := .fs_no_project_path, message := "no project path configured" },
      realRootCache)
  else if relPath = "" then
    (.error { errorCode := .fs_missing_path, message := "path query parameter is required" },
      realRootCache)
  else
    match decodeURIComponent relPath.toList with
    | none =>
      (.error { errorCode := .fs_path_outside_project, message := "malformed path encoding" },
        realRootCache)
    | some decoded =>
      match resolveSafePath host root (String.ofList decoded) with
      | .error failure => (.error (mapResolveError failure), realRootCache)
      | .ok safe =>
        match getRealRoot host tree realRootCache root with
        | (none, cache) =>
          (.error
            { errorCode := .fs_no_project_path, message := "project root cannot be resolved" },
            cache)
        | (some realRoot, cache) => (statReadable host tree realRoot safe.absolute, cache)

end Flockctl.FsOperations
