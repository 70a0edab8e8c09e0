import Flockctl.Collections.JsParse
import Flockctl.FsOperations.Jail

/-!
# The file service

Listing, reading, writing and the mutations of the file tree below an entity root, each as what one
call does when no other call comes between its system calls. A mutation answers with the tree it
leaves; a write leaves one whether it succeeds or not.
-/

namespace Flockctl.FsOperations

open Collections Encoding Files Paths

/-! ## Listing -/

inductive EntryType
  | file
  | dir
  deriving DecidableEq

structure FsEntry where
  name : Segment
  type : EntryType
  size : Option ℕ
  hasChildren : Option Bool
  ignored : Bool

structure FsListing where
  path : List Char
  entries : List FsEntry
  truncated : Bool

def LIST_ENTRY_CAP : ℕ := 5000

def mapFsError (error : Errno) (op : String) : FsFailure :=
  match error with
  | .ENOENT => { errorCode := .fs_not_found, message := op ++ ": not found" }
  | .ENOTDIR => { errorCode := .fs_not_a_directory, message := op ++ ": not a directory" }
  | .EACCES | .EPERM =>
    { errorCode := .fs_permission_denied, message := op ++ ": permission denied" }
  | .ENAMETOOLONG => { errorCode := .fs_invalid_path, message := op ++ ": enametoolong" }
  | .ELOOP => { errorCode := .fs_invalid_path, message := op ++ ": eloop" }
  | .EINVAL => { errorCode := .fs_invalid_path, message := op ++ ": einval" }
  | other => { errorCode := .fs_internal_error, message := Errno.message other }

/-- A name of a directory with the kind of its entry, where a link counts as a link. -/
structure Dirent where
  name : FileName
  isDirectory : Bool
  isFile : Bool

def direntOf (tree : FileTree) (location : Location FileName) (name : FileName) : Dirent where
  name := name
  isDirectory := Node.isDir (tree.node (name :: location))
  isFile := match tree.node (name :: location) with
    | some (.file _) => true
    | _ => false

/-- `readdir(path, { withFileTypes: true })`. -/
def dirents (host : Host) (tree : FileTree) (path : List (Step FileName)) :
    Except Errno (List Dirent) := do
  let names ← tree.readdir host.links path
  let location ← tree.stat host.links path
  if host.mayList location then .ok (names.map (direntOf tree location)) else .error .EACCES

/-- Directories first, then by name. -/
def listedBefore (host : Host) (a b : Dirent) : Bool :=
  if a.isDirectory = b.isDirectory then host.collate a.name.text b.name.text else a.isDirectory

def probeHasChildren (host : Host) (tree : FileTree) (path : List (Step FileName)) : Bool :=
  match dirents host tree path with
  | .ok found => !found.isEmpty
  | .error _ => false

/-- The type and the size of an entry, from its `stat` or, where this fails, from the directory. -/
def classify (host : Host) (tree : FileTree) (path : List (Step FileName)) (d : Dirent) :
    EntryType × Option ℕ :=
  match tree.stat host.links path with
  | .ok location =>
    match tree.node location with
    | some (.file bytes) => (.file, some bytes.length)
    | _ => (.dir, none)
  | .error _ => (if d.isDirectory then .dir else .file, none)

/-- The path of an entry of a directory that is listed under this path. -/
def entryPath (directory : List Char) (name : Segment) : List Char :=
  if directory = ['.'] then name else directory ++ '/' :: name

/-- What `.gitignore` and the fixed patterns of `loadGitignoreMatcher` say about a path. -/
abbrev Ignores := FileTree → AbsolutePath → List Char → Bool

def listEntry (host : Host) (tree : FileTree) (ignores : List Char → Bool) (safe : SafePath)
    (d : Dirent) : FsEntry :=
  let entryAbs := steps safe.absolute ++ [.child d.name]
  let entryRel := entryPath safe.relative d.name.text
  let (type, size) := classify host tree entryAbs d
  { name := d.name.text
    type := type
    size := size
    hasChildren := if type = .dir then some (probeHasChildren host tree entryAbs) else none
    ignored := ignores (if type = .dir then entryRel ++ ['/'] else entryRel) }

def listProjectDir (host : Host) (ignores : Ignores) (tree : FileTree)
    (projectRoot relPath : String) : Except FsFailure FsListing := do
  let safe ← resolveSafePath host projectRoot relPath
  match tree.stat host.links (steps safe.absolute) with
  | .error error => .error (mapFsError error "stat")
  | .ok location =>
    if tree.node location = some .dir then
      match dirents host tree (steps safe.absolute) with
      | .error error => .error (mapFsError error "readdir")
      | .ok found =>
        let matcher := ignores tree (host.absoluteRoot projectRoot)
        let sorted := found.mergeSort (listedBefore host)
        .ok
          { path := safe.relative
            entries := (sorted.take LIST_ENTRY_CAP).map (listEntry host tree matcher safe)
            truncated := decide (LIST_ENTRY_CAP < sorted.length) }
    else .error { errorCode := .fs_not_a_directory, message := "path is not a directory" }

/-! ## The index -/

def INDEX_PATH_CAP : ℕ := 50000

/-- One directory of the walk: the directories to go on with, the last of them first, and the paths
of the files. -/
def indexEntries (ignores : List Char → Bool) (rel : List Char) :
    List Dirent → List (List Char) × List (List Char) × Bool →
      List (List Char) × List (List Char) × Bool
  | [], result => result
  | d :: rest, (stack, paths, truncated) =>
    if INDEX_PATH_CAP ≤ paths.length then (stack, paths, true)
    else
      let erel := if rel = [] then d.name.text else rel ++ '/' :: d.name.text
      if d.isDirectory then
        if ignores (erel ++ ['/']) then indexEntries ignores rel rest (stack, paths, truncated)
        else indexEntries ignores rel rest (erel :: stack, paths, truncated)
      else if !d.isFile || ignores erel then
        indexEntries ignores rel rest (stack, paths, truncated)
      else indexEntries ignores rel rest (stack, paths ++ [erel], truncated)

/-- The depth-first walk, as far as so many directories. -/
def indexFrom (host : Host) (tree : FileTree) (ignores : List Char → Bool)
    (absoluteRoot : AbsolutePath) :
    ℕ → List (List Char) × List (List Char) × Bool → List (List Char) × Bool
  | 0, (_, paths, truncated) => (paths, truncated)
  | _ + 1, ([], paths, truncated) => (paths, truncated)
  | visits + 1, (rel :: stack, paths, truncated) =>
    if INDEX_PATH_CAP ≤ paths.length then (paths, true)
    else
      let absolute := resolve absoluteRoot (String.ofList rel)
      match dirents host tree (steps absolute) with
      | .error _ => indexFrom host tree ignores absoluteRoot visits (stack, paths, truncated)
      | .ok found =>
        indexFrom host tree ignores absoluteRoot visits
          (indexEntries ignores rel (found.mergeSort (listedBefore host)) (stack, paths, truncated))

/-- `indexProjectPaths` without a kept answer, for a tree of at most so many directories. -/
def indexProjectPaths (host : Host) (ignores : Ignores) (tree : FileTree) (projectRoot : String)
    (visits : ℕ) : Except FsFailure (List (List Char) × Bool) :=
  if projectRoot = "" then
    .error { errorCode := .fs_no_path, message := "no project path configured" }
  else
    match tree.stat host.links (steps (host.absoluteRoot projectRoot)) with
    | .error error => .error (mapFsError error "stat")
    | .ok location =>
      if tree.node location = some .dir then
        .ok (indexFrom host tree (ignores tree (host.absoluteRoot projectRoot))
          (host.absoluteRoot projectRoot) visits ([[]], [], false))
      else
        .error { errorCode := .fs_not_a_directory, message := "project root is not a directory" }

/-! ## Reading -/

def MAX_READ_BYTES : ℕ := 2 * 1024 * 1024

def BINARY_SNIFF_BYTES : ℕ := 4096

def RANGE_SLICE_CAP : ℕ := 1 * 1024 * 1024

/-- Whether a NUL byte stands near the front. -/
def appearsBinary (bytes : List UInt8) : Bool := (bytes.take BINARY_SNIFF_BYTES).contains 0

structure FsContent where
  content : String
  sha : String
  size : ℕ
  deriving DecidableEq

def readReadable (host : Host) (tree : FileTree) (readable : Readable) :
    Except FsFailure FsContent :=
  if MAX_READ_BYTES < readable.size then
    .error
      { errorCode := .fs_too_large
        message := "file is " ++ toString readable.size ++ " bytes; " ++
          toString MAX_READ_BYTES ++ "-byte cap exceeded" }
  else
    match tree.readFile host.links (steps readable.canonical) with
    | .error error =>
      if error = .ENOENT ∨ error = .ENOTDIR then
        .error { errorCode := .fs_not_found, message := "file disappeared" }
      else .error { errorCode := .fs_io_error, message := Errno.message error }
    | .ok bytes =>
      if appearsBinary bytes then
        .error { errorCode := .fs_binary, message := "file appears to be binary" }
      else
        .ok
          { content := String.ofList (decode bytes)
            sha := host.sha256 bytes
            size := readable.size }

def readProjectFile (host : Host) (tree : FileTree) (realRootCache : RealRoots)
    (projectRoot relPath : String) : Except FsFailure FsContent × RealRoots :=
  match resolveReadablePath host tree realRootCache projectRoot relPath with
  | (.error failure, cache) => (.error failure, cache)
  | (.ok readable, cache) => (readReadable host tree readable, cache)

structure FsRangeContent where
  content : String
  sha : String
  totalSize : ℕ
  offset : ℕ
  length : ℕ
  deriving DecidableEq

/-- A number that is a non-negative integer. -/
def naturalOf : JsNumber → Option ℕ
  | .finite value => if value.isInt ∧ 0 ≤ value then some value.num.toNat else none
  | _ => none

def invalidRange (message : String) : FsFailure :=
  { errorCode := .fs_invalid_range, message := message }

/-- The checked offset, and the length where one is given. -/
def checkRange (offset : JsNumber) (length : Option JsNumber) :
    Except FsFailure (ℕ × Option ℕ) :=
  match naturalOf offset with
  | none => .error (invalidRange "offset must be a non-negative integer")
  | some start =>
    match length with
    | none => .ok (start, none)
    | some given =>
      match naturalOf given with
      | none | some 0 => .error (invalidRange "length must be a positive integer")
      | some count =>
        if RANGE_SLICE_CAP < count then
          .error (invalidRange
            ("length exceeds slice cap (" ++ toString RANGE_SLICE_CAP ++ " bytes)"))
        else .ok (start, some count)

def readRange (host : Host) (tree : FileTree) (readable : Readable) (offset : ℕ)
    (length : Option ℕ) : Except FsFailure FsRangeContent :=
  if readable.size < offset then
    .error (invalidRange
      ("offset " ++ toString offset ++ " is past end of file (" ++ toString readable.size ++
        " bytes)"))
  else
    let effectiveLength :=
      min (min (length.getD RANGE_SLICE_CAP) (readable.size - offset)) RANGE_SLICE_CAP
    match tree.readFile host.links (steps readable.canonical) with
    | .error error =>
      if error = .ENOENT ∨ error = .ENOTDIR then
        .error { errorCode := .fs_not_found, message := "file disappeared" }
      else .error { errorCode := .fs_io_error, message := Errno.message error }
    | .ok bytes =>
      let slice := (bytes.drop offset).take effectiveLength
      if appearsBinary slice then
        .error { errorCode := .fs_binary, message := "file appears to be binary" }
      else
        .ok
          { content := String.ofList (decode slice)
            sha := host.sha256 bytes
            totalSize := readable.size
            offset := offset
            length := slice.length }

def readProjectFileRange (host : Host) (tree : FileTree) (realRootCache : RealRoots)
    (projectRoot relPath : String) (offset : JsNumber) (length : Option JsNumber) :
    Except FsFailure FsRangeContent × RealRoots :=
  match checkRange offset length with
  | .error failure => (.error failure, realRootCache)
  | .ok (start, count) =>
    match resolveReadablePath host tree realRootCache projectRoot relPath with
    | (.error failure, cache) => (.error failure, cache)
    | (.ok readable, cache) => (readRange host tree readable start count, cache)

/-! ## Writing -/

structure FsWritten where
  sha : String
  size : ℕ
  deriving DecidableEq

def shaOfFileOrNull (host : Host) (tree : FileTree) (path : List (Step FileName)) :
    Except Errno (Option String) :=
  match tree.readFile host.links path with
  | .ok bytes => .ok (some (host.sha256 bytes))
  | .error error => if error = .ENOENT ∨ error = .ENOTDIR then .ok none else .error error

/-- The steps of the directory of a path. -/
def parentSteps (path : AbsolutePath) : List (Step FileName) := path.segments.dropLast.map stepOf

/-- `<absolute>.flockctl-tmp-<uuid>`. -/
def tempSteps (path : AbsolutePath) (uuid : Segment) : List (Step FileName) :=
  parentSteps path ++
    [stepOf (path.segments.getLast?.getD [] ++ ".flockctl-tmp-".toList ++ uuid)]

/-- The failure of a write whose expected version is not the current one, if it is not. -/
def conflict (currentSha : Option String) (expectedSha : String) (allowCreate : Bool) :
    Option FsFailure :=
  match currentSha with
  | none =>
    if expectedSha = "" ∧ allowCreate = true then none
    else
      some
        { errorCode := .fs_sha_conflict
          message := "file does not exist"
          currentSha := some "" }
  | some sha =>
    if sha = expectedSha then none
    else
      some
        { errorCode := .fs_sha_conflict
          message := "on-disk sha does not match expectedSha"
          currentSha := some sha }

/-- The failure of a write whose directory is not there, if it is not. -/
def missingParent (host : Host) (tree : FileTree) (path : AbsolutePath) : Option FsFailure :=
  match tree.stat host.links (parentSteps path) with
  | .ok location =>
    if tree.node location = some .dir then none
    else some { errorCode := .fs_not_found, message := "parent path is not a directory" }
  | .error error =>
    if error = .ENOENT ∨ error = .ENOTDIR then
      some { errorCode := .fs_not_found, message := "parent directory does not exist" }
    else some { errorCode := .fs_io_error, message := Errno.message error }

/-- `unlink` of the temporary file, where an error is dropped. -/
def discard (host : Host) (tree : FileTree) (temp : List (Step FileName)) : FileTree :=
  match tree.unlink host.links temp with
  | .ok next => next
  | .error _ => tree

def writeFailure (error : Errno) : FsFailure :=
  if error = .EACCES ∨ error = .EPERM then
    { errorCode := .fs_permission_denied, message := Errno.message error }
  else { errorCode := .fs_io_error, message := Errno.message error }

/-- The answer of a write that has been committed. -/
def written (host : Host) (tree : FileTree) (path : AbsolutePath) (content : List UInt8) :
    Except FsFailure FsWritten :=
  match tree.stat host.links (steps path) with
  | .error error => .error { errorCode := .fs_io_error, message := Errno.message error }
  | .ok location =>
    .ok
      { sha := host.sha256 content
        size := match tree.node location with
          | some (.file bytes) => bytes.length
          | _ => 0 }

/-- What a write does while it holds the lock of its file. -/
def writeLocked (host : Host) (tree : FileTree) (absolute : AbsolutePath) (content : List UInt8)
    (expectedSha : String) (allowCreate : Bool) (uuid : Segment) :
    FileTree × Except FsFailure FsWritten :=
  let temp := tempSteps absolute uuid
  match shaOfFileOrNull host tree (steps absolute) with
  | .error error =>
    (tree, .error { errorCode := .fs_io_error, message := Errno.message error })
  | .ok currentSha =>
    match conflict currentSha expectedSha allowCreate with
    | some failure => (tree, .error failure)
    | none =>
      match missingParent host tree absolute with
      | some failure => (tree, .error failure)
      | none =>
        match tree.writeFile host.links temp content with
        | .error error => (discard host tree temp, .error (writeFailure error))
        | .ok prepared =>
          match prepared.rename host.links temp (steps absolute) with
          | .error error =>
            (discard host prepared temp,
              .error { errorCode := .fs_io_error, message := Errno.message error })
          | .ok next => (next, written host next absolute content)

def writeProjectFile (host : Host) (tree : FileTree) (projectRoot relPath content : String)
    (expectedSha : String) (allowCreate : Bool) (uuid : Segment) :
    FileTree × Except FsFailure FsWritten :=
  if projectRoot = "" then
    (tree,
      .error { errorCode := .fs_no_project_path, message := "no project path configured" })
  else if relPath = "" then
    (tree,
      .error { errorCode := .fs_missing_path, message := "path query parameter is required" })
  else
    match resolveSafePath host projectRoot relPath with
    | .error failure => (tree, .error (mapResolveError failure))
    | .ok safe =>
      let bytes := encode content.toList
      if MAX_READ_BYTES < bytes.length then
        (tree, .error
          { errorCode := .fs_too_large
            message := "payload is " ++ toString bytes.length ++ " bytes; " ++
              toString MAX_READ_BYTES ++ "-byte cap exceeded" })
      else writeLocked host tree safe.absolute bytes expectedSha allowCreate uuid

/-! ## Mutations -/

def MAX_CREATE_BYTES : ℕ := MAX_READ_BYTES

inductive Verb
  | create
  | rename
  | delete

def Verb.text : Verb → String
  | .create => "create"
  | .rename => "rename"
  | .delete => "delete"

def isProtectedRelative (rel : List Char) : Bool :=
  if rel = ['.'] ∨ rel = [] then false
  else
    let norm := rel.map fun c ↦ if c = '\\' then '/' else c
    norm == ".git".toList || ".git/".toList.isPrefixOf norm || norm == "node_modules".toList

def rejectRootOrProtected (safeRelative : List Char) (verb : Verb) : Except FsFailure Unit :=
  if safeRelative = ['.'] then
    .error { errorCode := .fs_invalid_name, message := "cannot " ++ verb.text ++ " root" }
  else if isProtectedRelative safeRelative then
    .error { errorCode := .fs_invalid_name, message := "path is protected" }
  else .ok ()

def mapMutateError (error : Errno) (op : String) : FsFailure :=
  match error with
  | .ENOENT => { errorCode := .fs_not_found, message := op ++ ": not found" }
  | .EEXIST => { errorCode := .fs_already_exists, message := op ++ ": target already exists" }
  | .ENOTEMPTY => { errorCode := .fs_not_empty, message := op ++ ": directory is not empty" }
  | .ENOTDIR => { errorCode := .fs_not_a_directory, message := op ++ ": enotdir" }
  | .EISDIR => { errorCode := .fs_not_a_directory, message := op ++ ": eisdir" }
  | .EACCES | .EPERM =>
    { errorCode := .fs_permission_denied, message := op ++ ": permission denied" }
  | .ENAMETOOLONG => { errorCode := .fs_invalid_path, message := op ++ ": enametoolong" }
  | .ELOOP => { errorCode := .fs_invalid_path, message := op ++ ": eloop" }
  | .EINVAL => { errorCode := .fs_invalid_path, message := op ++ ": einval" }
  | other => { errorCode := .fs_internal_error, message := Errno.message other }

/-- The error of a system call as the failure of a mutation. -/
def orFail {Value : Type} (result : Except Errno Value) (op : String) : Except FsFailure Value :=
  result.mapError fun error ↦ mapMutateError error op

def noRoot : FsFailure := { errorCode := .fs_no_path, message := "no root configured" }

def mkdirInRoot (host : Host) (tree : FileTree) (root relPath : String) :
    Except FsFailure FileTree := do
  if root = "" then .error noRoot
  else
    let safe ← resolveSafePath host root relPath
    rejectRootOrProtected safe.relative .create
    orFail (tree.mkdir host.links (steps safe.absolute)) "mkdir"

def createFileInRoot (host : Host) (tree : FileTree) (root relPath : String)
    (content : Option String) : Except FsFailure FileTree := do
  if root = "" then .error noRoot
  else
    let body := encode (content.getD "").toList
    if MAX_CREATE_BYTES < body.length then
      .error
        { errorCode := .fs_too_large
          message := "content exceeds " ++ toString MAX_CREATE_BYTES ++ "-byte cap" }
    else
      let safe ← resolveSafePath host root relPath
      rejectRootOrProtected safe.relative .create
      orFail (tree.createFile host.links (steps safe.absolute) body) "create"

def renameInRoot (host : Host) (tree : FileTree) (root fromRel toRel : String) :
    Except FsFailure FileTree := do
  if root = "" then .error noRoot
  else
    let safeFrom ← resolveSafePath host root fromRel
    let safeTo ← resolveSafePath host root toRel
    rejectRootOrProtected safeFrom.relative .rename
    rejectRootOrProtected safeTo.relative .rename
    match tree.lstat host.links (steps safeTo.absolute) with
    | .ok _ => .error { errorCode := .fs_already_exists, message := "target already exists" }
    | .error error =>
      if error = .ENOENT then
        orFail (tree.rename host.links (steps safeFrom.absolute) (steps safeTo.absolute)) "rename"
      else .error (mapMutateError error "rename")

def deleteInRoot (host : Host) (tree : FileTree) (root relPath : String) (recursive : Bool) :
    Except FsFailure FileTree := do
  if root = "" then .error noRoot
  else
    let safe ← resolveSafePath host root relPath
    rejectRootOrProtected safe.relative .delete
    let path := steps safe.absolute
    let entry ← orFail (tree.lstat host.links path) "delete"
    match entry with
    | .dir =>
      if recursive then orFail (tree.rmAll host.links path) "delete"
      else
        let entries ← orFail (tree.readdir host.links path) "delete"
        if entries = [] then orFail (tree.rmdir host.links path) "delete"
        else .error { errorCode := .fs_not_empty, message := "directory is not empty" }
    | _ => orFail (tree.unlink host.links path) "delete"

end Flockctl.FsOperations
