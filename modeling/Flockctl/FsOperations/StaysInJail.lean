import Flockctl.FsOperations.Operations

/-!
# What the file service can reach

A read answers only with the content of a file below the canonical root. A listing names the entries
of the directory that its path leads to, links included. A mutation works on the entry that its path
names in the directory the rest of the path leads to, so it changes nothing outside the canonical
root when this directory is inside; on a path without links from the root on, no mutation that makes
the protection check touches `.git`.
-/

namespace Flockctl.FsOperations

open Collections Encoding Files Paths

/-- The requests that change the file tree. -/
inductive Mutation
  | write (relPath content expectedSha : String) (allowCreate : Bool) (uuid : Segment)
  | mkdir (relPath : String)
  | create (relPath : String) (content : Option String)
  | rename (fromRel toRel : String)
  | delete (relPath : String) (recursive : Bool)

namespace Mutation

/-- The tree that the call leaves. -/
def apply (host : Host) (tree : FileTree) (root : String) : Mutation → FileTree
  | .write relPath content expectedSha allowCreate uuid =>
    (writeProjectFile host tree root relPath content expectedSha allowCreate uuid).1
  | .mkdir relPath => (mkdirInRoot host tree root relPath).toOption.getD tree
  | .create relPath content => (createFileInRoot host tree root relPath content).toOption.getD tree
  | .rename fromRel toRel => (renameInRoot host tree root fromRel toRel).toOption.getD tree
  | .delete relPath recursive => (deleteInRoot host tree root relPath recursive).toOption.getD tree

def paths : Mutation → List String
  | .write relPath _ _ _ _ => [relPath]
  | .mkdir relPath => [relPath]
  | .create relPath _ => [relPath]
  | .rename fromRel toRel => [fromRel, toRel]
  | .delete relPath _ => [relPath]

/-- Whether the mutation asks `rejectRootOrProtected`. -/
def checksProtection : Mutation → Bool
  | .write _ _ _ _ _ => false
  | _ => true

/-- The name of the temporary file is not in use. -/
def IsFresh (host : Host) (tree : FileTree) (root : String) : Mutation → Prop
  | .write relPath _ _ _ uuid => ∀ safe, resolveSafePath host root relPath = .ok safe →
      ∀ slot, tree.slot host.links (tempSteps safe.absolute uuid) = .ok slot →
        tree.node slot.location = none
  | _ => True

end Mutation

/-- The directory that the last name of a path is looked up in lies at or below the location. -/
def LeadsInside (host : Host) (tree : FileTree) (root : String) (location : Location FileName)
    (relPath : String) : Prop :=
  ∀ safe, resolveSafePath host root relPath = .ok safe → safe.relative ≠ ['.'] →
    ∀ directory, tree.stat host.links (parentSteps safe.absolute) = .ok directory →
      location <:+ directory

/-- No name on the way from the location is a link. -/
def Straight (tree : FileTree) (location : Location FileName) : List Segment → Prop
  | [] => True
  | segment :: rest => ∀ name, stepOf segment = .child name →
      (∀ target, tree.node (name :: location) ≠ some (.link target)) ∧
        Straight tree (name :: location) rest

/-- No name on the way from the root to the last name of the path is a link. -/
def LeadsStraight (host : Host) (tree : FileTree) (root : String) (location : Location FileName)
    (relPath : String) : Prop :=
  ∀ safe, resolveSafePath host root relPath = .ok safe →
    ∀ rest, safe.absolute.segments = (host.absoluteRoot root).segments ++ rest →
      Straight tree location rest.dropLast

/-- The canonical root of an entity. -/
def IsCanonicalRoot (host : Host) (tree : FileTree) (root : String)
    (location : Location FileName) : Prop :=
  tree.LeadsTo (steps (host.absoluteRoot root)) location ∧ tree.node location = some .dir

def gitName : FileName where
  text := ['.', 'g', 'i', 't']
  isName := by decide
  noNul := by decide
  short := by decide

/-- What the file service reads, lists and changes for a root. -/
structure StaysInJail (host : Host) (ignores : Ignores) (tree : FileTree) (root : String) :
    Prop where
  /-- the root that a read compares with is kept from an earlier read or canonical -/
  knownRoot : ∀ cache real, (getRealRoot host tree cache root).1 = some real →
    cache.get root = some real ∨
      ∃ location, real = pathOf location ∧
        tree.LeadsTo (steps (host.absoluteRoot root)) location
  read : ∀ cache relPath content, (readProjectFile host tree cache root relPath).1 = .ok content →
    ∃ real location bytes, (getRealRoot host tree cache root).1 = some real ∧
      real.segments <+: (pathOf location).segments ∧
        tree.node location = some (.file bytes) ∧
          content.content = String.ofList (decode bytes) ∧ content.sha = host.sha256 bytes
  readRange : ∀ cache relPath offset length content,
    (readProjectFileRange host tree cache root relPath offset length).1 = .ok content →
      ∃ real location bytes, (getRealRoot host tree cache root).1 = some real ∧
        real.segments <+: (pathOf location).segments ∧
          tree.node location = some (.file bytes) ∧
            content.content =
              String.ofList (decode ((bytes.drop content.offset).take content.length)) ∧
              content.sha = host.sha256 bytes
  list : ∀ relPath listing, listProjectDir host ignores tree root relPath = .ok listing →
    ∃ safe location, resolveSafePath host root relPath = .ok safe ∧
      (host.absoluteRoot root).segments <+: safe.absolute.segments ∧
        tree.stat host.links (steps safe.absolute) = .ok location ∧
          tree.node location = some .dir ∧
            ∀ entry ∈ listing.entries, ∃ name : FileName,
              entry.name = name.text ∧ tree.node (name :: location) ≠ none
  /-- a mutation whose directories are inside changes nothing outside -/
  outside : ∀ (mutation : Mutation) location, IsCanonicalRoot host tree root location →
    mutation.IsFresh host tree root →
      (∀ relPath ∈ mutation.paths, LeadsInside host tree root location relPath) →
        tree.SameOutside (mutation.apply host tree root) location
  /-- a mutation that makes the check and follows no link leaves `.git` alone -/
  protects : ∀ (mutation : Mutation) location, IsCanonicalRoot host tree root location →
    mutation.checksProtection = true →
      (∀ relPath ∈ mutation.paths, LeadsStraight host tree root location relPath) →
        ∀ place, gitName :: location <:+ place →
          (mutation.apply host tree root).node place = tree.node place

/-! ## Reading -/

variable {host : Host} {tree : FileTree} {root relPath : String}

theorem getRealRoot_eq_some {cache : RealRoots} {real : AbsolutePath}
    (h : (getRealRoot host tree cache root).1 = some real) :
    cache.get root = some real ∨
      ∃ location, real = pathOf location ∧
        tree.LeadsTo (steps (host.absoluteRoot root)) location := by
  unfold getRealRoot at h
  split at h
  · rename_i cached hcached
    left
    rw [hcached]
    exact h
  · split at h
    · cases h
    · rename_i found hfound
      obtain rfl : found = real := Option.some.inj h
      obtain ⟨location, hreal, -, hwalk, -⟩ := stat_of_realpath hfound
      exact Or.inr ⟨location, hreal, _, hwalk⟩

/-- A file that may be read is below the known root, and its path is canonical. -/
theorem resolveReadablePath_eq_ok {cache : RealRoots} {readable : Readable}
    (h : (resolveReadablePath host tree cache root relPath).1 = .ok readable) :
    ∃ real location bytes, (getRealRoot host tree cache root).1 = some real ∧
      isWithin real readable.canonical = true ∧ readable.canonical = pathOf location ∧
        tree.node location = some (.file bytes) ∧ readable.size = bytes.length := by
  unfold resolveReadablePath at h
  split at h
  · cases h
  split at h
  · cases h
  split at h
  · cases h
  split at h
  · cases h
  split at h
  · cases h
  rename_i real newCache hreal
  unfold statReadable at h
  split at h
  · cases h
  rename_i canonical hcanonical
  split at h
  · rename_i hwithin
    split at h
    · split at h
      · cases h
      · cases h
    · rename_i location hstat
      split at h
      · rename_i bytes hnode
        cases h
        exact ⟨real, location, bytes, by rw [hreal], hwithin,
          (stat_deepRealpath hcanonical hstat).1, hnode, rfl⟩
      · cases h
  · cases h

/-- Reading by a canonical path. -/
theorem readFile_pathOf {location : Location FileName} {bytes : List UInt8}
    (h : tree.node location = some (.file bytes)) :
    tree.readFile host.links (steps (pathOf location)) = .ok bytes := by
  rw [Tree.readFile_eq_ok_iff]
  refine ⟨location, ?_, h⟩
  rw [steps_pathOf]
  exact Tree.walk_pathTo_self (Or.inr ⟨bytes, h⟩) host.links

theorem readProjectFile_eq_ok {cache : RealRoots} {content : FsContent}
    (h : (readProjectFile host tree cache root relPath).1 = .ok content) :
    ∃ real location bytes, (getRealRoot host tree cache root).1 = some real ∧
      real.segments <+: (pathOf location).segments ∧ tree.node location = some (.file bytes) ∧
        content.content = String.ofList (decode bytes) ∧ content.sha = host.sha256 bytes := by
  unfold readProjectFile at h
  split at h
  · cases h
  rename_i readable newCache hreadable
  obtain ⟨real, location, bytes, hreal, hwithin, hcanonical, hnode, -⟩ :=
    resolveReadablePath_eq_ok (congrArg Prod.fst hreadable)
  refine ⟨real, location, bytes, hreal, hcanonical ▸ segments_of_isWithin hwithin, hnode, ?_⟩
  rw [readReadable, hcanonical, readFile_pathOf hnode] at h
  split at h
  · cases h
  · dsimp only at h
    split at h
    · cases h
    · cases h
      exact ⟨rfl, rfl⟩

theorem readProjectFileRange_eq_ok {cache : RealRoots} {offset : JsNumber}
    {length : Option JsNumber} {content : FsRangeContent}
    (h : (readProjectFileRange host tree cache root relPath offset length).1 = .ok content) :
    ∃ real location bytes, (getRealRoot host tree cache root).1 = some real ∧
      real.segments <+: (pathOf location).segments ∧ tree.node location = some (.file bytes) ∧
        content.content =
          String.ofList (decode ((bytes.drop content.offset).take content.length)) ∧
          content.sha = host.sha256 bytes := by
  unfold readProjectFileRange at h
  split at h
  · cases h
  split at h
  · cases h
  rename_i readable newCache hreadable
  obtain ⟨real, location, bytes, hreal, hwithin, hcanonical, hnode, -⟩ :=
    resolveReadablePath_eq_ok (congrArg Prod.fst hreadable)
  refine ⟨real, location, bytes, hreal, hcanonical ▸ segments_of_isWithin hwithin, hnode, ?_⟩
  rw [readRange, hcanonical, readFile_pathOf hnode] at h
  split at h
  · cases h
  · dsimp only at h
    split at h
    · cases h
    · cases h
      refine ⟨?_, rfl⟩
      dsimp only
      rw [List.length_take, ← List.take_eq_take_min]

/-! ## Listing -/

/-- The entries of a listing have the names of the directory. -/
theorem name_of_mem_dirents {path : List (Step FileName)} {found : List Dirent}
    {location : Location FileName} (h : dirents host tree path = .ok found)
    (hstat : tree.stat host.links path = .ok location) {d : Dirent} (hd : d ∈ found) :
    tree.node (d.name :: location) ≠ none := by
  obtain ⟨names, hnames, hrest⟩ := bind_eq_ok_iff.mp h
  obtain ⟨other, hother, hfound⟩ := bind_eq_ok_iff.mp hrest
  obtain rfl : other = location := Except.ok.inj (hother.symm.trans hstat)
  split at hfound
  case isFalse => cases hfound
  cases hfound
  obtain ⟨name, hname, rfl⟩ := List.mem_map.mp hd
  obtain ⟨listed, hlisted, hchildren⟩ := bind_eq_ok_iff.mp hnames
  obtain rfl : listed = other := Except.ok.inj (hlisted.symm.trans hother)
  split at hchildren
  · cases hchildren
    exact Tree.mem_children.mp hname
  · cases hchildren

theorem listProjectDir_eq_ok {ignores : Ignores} {listing : FsListing}
    (h : listProjectDir host ignores tree root relPath = .ok listing) :
    ∃ safe location, resolveSafePath host root relPath = .ok safe ∧
      (host.absoluteRoot root).segments <+: safe.absolute.segments ∧
        tree.stat host.links (steps safe.absolute) = .ok location ∧
          tree.node location = some .dir ∧
            ∀ entry ∈ listing.entries, ∃ name : FileName,
              entry.name = name.text ∧ tree.node (name :: location) ≠ none := by
  obtain ⟨safe, hsafe, hlist⟩ := bind_eq_ok_iff.mp h
  split at hlist
  · cases hlist
  rename_i location hstat
  split at hlist
  · rename_i hdir
    split at hlist
    · cases hlist
    · rename_i found hfound
      cases hlist
      refine ⟨safe, location, hsafe, segments_of_isWithin (resolveSafePath_eq_ok hsafe).2.1, hstat,
        hdir, ?_⟩
      intro entry hentry
      obtain ⟨d, hd, rfl⟩ := List.mem_map.mp hentry
      refine ⟨d.name, rfl, name_of_mem_dirents hfound hstat ?_⟩
      exact List.mem_mergeSort.mp (List.mem_of_mem_take hd)
  · cases hlist

/-! ## Places of mutations -/

/-- The entry that an accepted path of a mutation names. -/
def HasPlace (host : Host) (tree : FileTree) (root relPath : String)
    (location : Location FileName) : Prop :=
  ∃ safe slot, resolveSafePath host root relPath = .ok safe ∧
    rejectRootOrProtected safe.relative .create = .ok () ∧
      tree.slot host.links (steps safe.absolute) = .ok slot ∧ slot.location = location

theorem orFail_eq_ok {Value : Type} {result : Except Errno Value} {op : String} {value : Value}
    (h : orFail result op = .ok value) : result = .ok value := by
  cases result with
  | error error => cases h
  | ok found =>
    cases h
    rfl

/-- Which verb a refusal names does not matter for what it refuses. -/
theorem rejectRootOrProtected_verb {rel : List Char} {verb : Verb}
    (h : rejectRootOrProtected rel verb = .ok ()) (other : Verb) :
    rejectRootOrProtected rel other = .ok () := by
  unfold rejectRootOrProtected at h ⊢
  split at h
  · cases h
  · rename_i hroot
    rw [if_neg hroot]
    split at h
    · cases h
    · rename_i hprotected
      rw [if_neg hprotected]

theorem mkdirInRoot_eq_ok {next : FileTree} (h : mkdirInRoot host tree root relPath = .ok next) :
    ∃ location, HasPlace host tree root relPath location ∧ tree.SameOutside next location := by
  unfold mkdirInRoot at h
  split at h
  · cases h
  obtain ⟨safe, hsafe, hrest⟩ := bind_eq_ok_iff.mp h
  obtain ⟨⟨⟩, hallowed, hmkdir⟩ := bind_eq_ok_iff.mp hrest
  obtain ⟨slot, hslot, -, hnode⟩ := Tree.mkdir_eq_ok (orFail_eq_ok hmkdir)
  exact ⟨slot.location, ⟨safe, slot, hsafe, hallowed, hslot, rfl⟩,
    Tree.sameOutside_of_replaced hnode⟩

theorem createFileInRoot_eq_ok {content : Option String} {next : FileTree}
    (h : createFileInRoot host tree root relPath content = .ok next) :
    ∃ location, HasPlace host tree root relPath location ∧ tree.SameOutside next location := by
  unfold createFileInRoot at h
  split at h
  · cases h
  dsimp only at h
  split at h
  · cases h
  obtain ⟨safe, hsafe, hrest⟩ := bind_eq_ok_iff.mp h
  obtain ⟨⟨⟩, hallowed, hcreate⟩ := bind_eq_ok_iff.mp hrest
  obtain ⟨slot, hslot, -, hnode⟩ := Tree.createFile_eq_ok (orFail_eq_ok hcreate)
  exact ⟨slot.location, ⟨safe, slot, hsafe, hallowed, hslot, rfl⟩,
    Tree.sameOutside_of_replaced hnode⟩

theorem deleteInRoot_eq_ok {recursive : Bool} {next : FileTree}
    (h : deleteInRoot host tree root relPath recursive = .ok next) :
    ∃ location, HasPlace host tree root relPath location ∧ tree.SameOutside next location := by
  unfold deleteInRoot at h
  split at h
  · cases h
  obtain ⟨safe, hsafe, hrest⟩ := bind_eq_ok_iff.mp h
  obtain ⟨⟨⟩, hallowed, hdelete⟩ := bind_eq_ok_iff.mp hrest
  have hpruned {slot : tree.Slot} (hslot : tree.slot host.links (steps safe.absolute) = .ok slot) :
      ∃ location, HasPlace host tree root relPath location ∧
        tree.SameOutside (tree.prune slot.directory slot.name) location :=
    ⟨slot.location, ⟨safe, slot, hsafe, rejectRootOrProtected_verb hallowed .create, hslot, rfl⟩,
      Tree.sameOutside_prune slot⟩
  obtain ⟨entry, hentry, hremove⟩ := bind_eq_ok_iff.mp hdelete
  split at hremove
  · split at hremove
    · obtain ⟨slot, hslot, rfl⟩ := Tree.rmAll_eq_ok (orFail_eq_ok hremove)
      exact hpruned hslot
    · obtain ⟨entries, hentries, hrmdir⟩ := bind_eq_ok_iff.mp hremove
      split at hrmdir
      · obtain ⟨slot, hslot, rfl⟩ := Tree.rmdir_eq_ok (orFail_eq_ok hrmdir)
        exact hpruned hslot
      · cases hrmdir
  · obtain ⟨slot, hslot, -, rfl⟩ := Tree.unlink_eq_ok (orFail_eq_ok hremove)
    exact hpruned hslot

theorem renameInRoot_eq_ok {fromRel toRel : String} {next : FileTree}
    (h : renameInRoot host tree root fromRel toRel = .ok next) :
    ∃ old new, HasPlace host tree root fromRel old ∧ HasPlace host tree root toRel new ∧
      (next = tree ∨ ∀ place, next.node place = tree.moved old new place) := by
  unfold renameInRoot at h
  split at h
  · cases h
  obtain ⟨safeFrom, hfrom, hrest⟩ := bind_eq_ok_iff.mp h
  obtain ⟨safeTo, hto, hrest⟩ := bind_eq_ok_iff.mp hrest
  obtain ⟨⟨⟩, hallowedFrom, hrest⟩ := bind_eq_ok_iff.mp hrest
  obtain ⟨⟨⟩, hallowedTo, hrest⟩ := bind_eq_ok_iff.mp hrest
  split at hrest
  · cases hrest
  split at hrest
  · obtain ⟨old, new, hold, hnew, -, hdone⟩ := Tree.rename_eq_ok (orFail_eq_ok hrest)
    refine ⟨old.location, new.location,
      ⟨safeFrom, old, hfrom, rejectRootOrProtected_verb hallowedFrom .create, hold, rfl⟩,
      ⟨safeTo, new, hto, rejectRootOrProtected_verb hallowedTo .create, hnew, rfl⟩, ?_⟩
    rcases hdone with ⟨-, rfl⟩ | ⟨-, hmoved⟩
    · exact Or.inl rfl
    · exact Or.inr hmoved
  · cases hrest

theorem rejectRootOrProtected_eq_ok {rel : List Char} {verb : Verb}
    (h : rejectRootOrProtected rel verb = .ok ()) :
    rel ≠ ['.'] ∧ isProtectedRelative rel = false := by
  unfold rejectRootOrProtected at h
  split at h
  · cases h
  · rename_i hroot
    split at h
    · cases h
    · rename_i hplain
      exact ⟨hroot, Bool.eq_false_iff.mpr hplain⟩

theorem dropLast_steps (path : AbsolutePath) : (steps path).dropLast = parentSteps path :=
  List.map_dropLast.symm

/-- An entry in a directory inside lies inside. -/
theorem HasPlace.inside {location place : Location FileName}
    (h : HasPlace host tree root relPath place)
    (hinside : LeadsInside host tree root location relPath) : location <:+ place := by
  obtain ⟨safe, slot, hsafe, hallowed, hslot, rfl⟩ := h
  have hwalk := (Tree.slot_eq_ok hslot).1
  rw [dropLast_steps] at hwalk
  exact (hinside safe hsafe (rejectRootOrProtected_eq_ok hallowed).1 slot.directory hwalk).trans
    (List.suffix_cons slot.name slot.directory)

theorem stepOf_of_isName {segment : Segment} (h : Segment.IsName segment) :
    (∃ name : FileName, stepOf segment = .child name ∧ name.text = segment) ∨
      ∃ error, stepOf segment = .unusable error := by
  by_cases hnul : '\x00' ∈ segment
  · right
    exact ⟨_, by rw [stepOf, dif_pos h, dif_neg (not_not.mpr hnul)]⟩
  · by_cases hshort : (encode segment).length ≤ 255
    · left
      exact ⟨⟨segment, h, hnul, hshort⟩, by rw [stepOf, dif_pos h, dif_pos hnul, dif_pos hshort],
        rfl⟩
    · right
      exact ⟨_, by rw [stepOf, dif_pos h, dif_pos hnul, dif_neg hshort]⟩

/-- A walk without links arrives at the names of its steps. -/
theorem location_of_straight {links : ℕ} {location arrived : Location FileName}
    {segments : List Segment} (hnames : ∀ name ∈ segments, Segment.IsName name)
    (hstraight : Straight tree location segments)
    (h : tree.walk links location (segments.map stepOf) = .ok arrived) :
    ∃ names : List FileName, names.map FileName.text = segments ∧
      arrived = names.reverse ++ location := by
  induction segments generalizing location with
  | nil =>
    rw [List.map_nil, Tree.walk_nil] at h
    cases h
    exact ⟨[], rfl, rfl⟩
  | cons segment rest ih =>
    rw [List.map_cons] at h
    rcases stepOf_of_isName (hnames segment List.mem_cons_self) with
      ⟨name, hname, htext⟩ | ⟨error, herror⟩
    · obtain ⟨hplain, hrest⟩ := hstraight name hname
      rw [hname, Tree.walk_cons] at h
      rcases Tree.enter_child_cases tree location name with
        ⟨error, hrefused⟩ | honto | ⟨target, hlink⟩
      · rw [hrefused] at h
        cases h
      · rw [honto] at h
        obtain ⟨names, hmap, harrived⟩ :=
          ih (fun other hother ↦ hnames other (List.mem_cons_of_mem segment hother)) hrest h
        refine ⟨name :: names, by rw [List.map_cons, hmap, htext], ?_⟩
        rw [harrived, List.reverse_cons, List.append_assoc, List.singleton_append]
      · exact absurd hlink (hplain target)
    · rw [herror, Tree.walk_cons] at h
      have hrefused : ∃ other, tree.enter location (.unusable error) = .refused other := by
        unfold Tree.enter
        split
        · exact ⟨error, rfl⟩
        · exact ⟨.ENOTDIR, rfl⟩
      obtain ⟨other, hother⟩ := hrefused
      rw [hother] at h
      cases h

theorem isProtectedRelative_git (rest : List Segment) :
    isProtectedRelative (['/'].intercalate (gitName.text :: rest)) = true := by
  cases rest with
  | nil => decide
  | cons second rest =>
    rw [List.intercalate_cons_cons]
    simp [isProtectedRelative, gitName]

/-- An entry that the check admits on a way without links is not over `.git`. -/
theorem HasPlace.not_over_git {location place : Location FileName}
    (h : HasPlace host tree root relPath place)
    (hroot : tree.LeadsTo (steps (host.absoluteRoot root)) location)
    (hstraight : LeadsStraight host tree root location relPath) {below : Location FileName}
    (hbelow : gitName :: location <:+ below) : ¬ place <:+ below := by
  obtain ⟨safe, slot, hsafe, hallowed, hslot, rfl⟩ := h
  obtain ⟨hdot, hplain⟩ := rejectRootOrProtected_eq_ok hallowed
  obtain ⟨-, -, rest, hsegments, hnames, hrelative⟩ := resolveSafePath_eq_ok hsafe
  obtain ⟨hwalk, hlast⟩ := Tree.slot_eq_ok hslot
  have hrest : rest ≠ [] := fun hnil ↦ hdot (by rw [hrelative, if_pos hnil])
  rw [if_neg hrest] at hrelative
  -- the names after the root lead from the canonical root to the directory
  have hparent : parentSteps safe.absolute =
      steps (host.absoluteRoot root) ++ rest.dropLast.map stepOf := by
    rw [parentSteps, hsegments, List.dropLast_append_of_ne_nil hrest, List.map_append, steps]
  rw [dropLast_steps, hparent] at hwalk
  obtain ⟨names, hmap, hdirectory⟩ : ∃ names : List FileName,
      names.map FileName.text = rest.dropLast ∧ slot.directory = names.reverse ++ location := by
    cases hstart : tree.walk host.links [] (steps (host.absoluteRoot root)) with
    | error error =>
      rw [Tree.walk_append_of_error hstart] at hwalk
      cases hwalk
    | ok start =>
      obtain rfl := hroot.eq_of_walk hstart
      obtain ⟨left, -, hon⟩ := Tree.walk_append hstart
      rw [hon] at hwalk
      exact location_of_straight (fun name hname ↦ hnames name (List.mem_of_mem_dropLast hname))
        (hstraight safe hsafe rest hsegments) hwalk
  have htext : slot.name.text = rest.getLast hrest := by
    apply text_of_stepOf
    have hsteps : (steps safe.absolute).getLast? = some (stepOf (rest.getLast hrest)) := by
      rw [steps, List.getLast?_map, hsegments, List.getLast?_append_of_ne_nil _ hrest,
        List.getLast?_eq_some_getLast hrest]
      rfl
    exact Option.some.inj (hsteps.symm.trans hlast)
  have hall : (names ++ [slot.name]).map FileName.text = rest := by
    rw [List.map_append, hmap, List.map_singleton, htext, List.dropLast_append_getLast]
  intro hover
  obtain ⟨first, others, hfirst⟩ := List.exists_cons_of_ne_nil
    (List.append_ne_nil_of_right_ne_nil names (List.cons_ne_nil slot.name []))
  -- both `.git` and the first name stand next to the root on the way to the place below
  have hslotLocation : slot.location = others.reverse ++ (first :: location) := by
    have hreverse := congrArg List.reverse hfirst
    rw [List.reverse_append, List.reverse_singleton, List.singleton_append,
      List.reverse_cons] at hreverse
    rw [Tree.Slot.location, hdirectory, ← List.cons_append, hreverse, List.append_assoc,
      List.singleton_append]
  have hover' : first :: location <:+ below := by
    refine List.IsSuffix.trans ?_ hover
    rw [hslotLocation]
    exact List.suffix_append _ _
  have hsame : gitName :: location = first :: location :=
    (List.suffix_of_suffix_length_le hbelow hover' (Nat.le_refl _)).eq_of_length rfl
  obtain ⟨rfl, -⟩ := List.cons_eq_cons.mp hsame
  rw [hfirst, List.map_cons] at hall
  rw [hrelative, ← hall, isProtectedRelative_git] at hplain
  cases hplain

/-! ## Writing -/

theorem dropLast_tempSteps (path : AbsolutePath) (uuid : Segment) :
    (tempSteps path uuid).dropLast = parentSteps path := List.dropLast_concat

section Writing

variable {absolute : AbsolutePath} {above : Location FileName}

section

variable
  (hover : ∀ directory, tree.stat host.links (parentSteps absolute) = .ok directory →
    above <:+ directory)

include hover

/-- The directory of a path is the same for its entry and for the temporary file. -/
theorem over_slot {path : List (Step FileName)} (hpath : path.dropLast = parentSteps absolute)
    {slot : tree.Slot} (hslot : tree.slot host.links path = .ok slot) : above <:+ slot.location := by
  have hwalk := (Tree.slot_eq_ok hslot).1
  rw [hpath] at hwalk
  exact (hover slot.directory hwalk).trans (List.suffix_cons slot.name slot.directory)

theorem sameOutside_discard (uuid : Segment) :
    tree.SameOutside (discard host tree (tempSteps absolute uuid)) above := by
  unfold discard
  split
  · rename_i next hnext
    obtain ⟨slot, hslot, -, rfl⟩ := Tree.unlink_eq_ok hnext
    exact (Tree.sameOutside_prune slot).mono
      (over_slot hover (dropLast_tempSteps absolute uuid) hslot)
  · exact Tree.SameOutside.refl above

/-- A write changes nothing outside a location that its directory is inside of. -/
theorem sameOutside_writeLocked {uuid : Segment}
    (hfresh : ∀ slot, tree.slot host.links (tempSteps absolute uuid) = .ok slot →
      tree.node slot.location = none) (content : List UInt8) (expectedSha : String)
    (allowCreate : Bool) :
    tree.SameOutside (writeLocked host tree absolute content expectedSha allowCreate uuid).1
      above := by
  unfold writeLocked
  dsimp only
  split
  · exact Tree.SameOutside.refl above
  split
  · exact Tree.SameOutside.refl above
  split
  · exact Tree.SameOutside.refl above
  split
  · exact sameOutside_discard hover uuid
  rename_i prepared hprepared
  obtain ⟨slot, hslot, -⟩ := bind_eq_ok_iff.mp hprepared
  have hnode := Tree.writeFile_eq_ok hslot (hfresh slot hslot) hprepared
  have hextends : tree.Extends prepared := by
    intro place entry hentry
    rw [hnode, if_neg, hentry]
    rintro rfl
    rw [hfresh slot hslot] at hentry
    cases hentry
  have hfirst : tree.SameOutside prepared above :=
    (Tree.sameOutside_of_replaced hnode).mono
      (over_slot hover (dropLast_tempSteps absolute uuid) hslot)
  -- the temporary file is new, so the directory is found again where it was
  have hover' (directory : Location FileName)
      (hdirectory : prepared.stat host.links (parentSteps absolute) = .ok directory) :
      above <:+ directory := by
    have hwalk := (Tree.slot_eq_ok hslot).1
    rw [dropLast_tempSteps] at hwalk
    have hsame := Tree.walk_of_extends hextends hwalk
    obtain rfl : slot.directory = directory := Except.ok.inj (hsame.symm.trans hdirectory)
    exact hover slot.directory hwalk
  split
  · exact hfirst.trans (sameOutside_discard hover' uuid)
  · rename_i next hnext
    obtain ⟨old, new, hold, hnew, -, hdone⟩ := Tree.rename_eq_ok hnext
    rcases hdone with ⟨-, rfl⟩ | ⟨-, hmoved⟩
    · exact hfirst
    · exact hfirst.trans (Tree.sameOutside_moved hmoved
        (over_slot hover' (dropLast_tempSteps absolute uuid) hold)
        (over_slot hover' (dropLast_steps absolute) hnew))

end

/-- A write to the root itself is refused. -/
theorem writeLocked_root {root : Location FileName} (hroot : tree.LeadsTo (steps absolute) root)
    (hdir : tree.node root = some .dir) (content : List UInt8) (expectedSha : String)
    (allowCreate : Bool) (uuid : Segment) :
    (writeLocked host tree absolute content expectedSha allowCreate uuid).1 = tree := by
  have hsha : ∃ error, shaOfFileOrNull host tree (steps absolute) = .error error := by
    unfold shaOfFileOrNull Tree.readFile Tree.stat
    rcases Tree.walk_of_leadsTo hroot host.links with hok | hloop
    · rw [hok]
      simp only [bind, Except.bind, hdir]
      exact ⟨_, rfl⟩
    · rw [hloop]
      exact ⟨_, rfl⟩
  obtain ⟨error, herror⟩ := hsha
  rw [writeLocked, herror]

end Writing

theorem sameOutside_writeProjectFile {location : Location FileName}
    (hroot : IsCanonicalRoot host tree root location)
    (hinside : LeadsInside host tree root location relPath) {uuid : Segment}
    (hfresh : ∀ safe, resolveSafePath host root relPath = .ok safe →
      ∀ slot, tree.slot host.links (tempSteps safe.absolute uuid) = .ok slot →
        tree.node slot.location = none) (content expectedSha : String) (allowCreate : Bool) :
    tree.SameOutside
      (writeProjectFile host tree root relPath content expectedSha allowCreate uuid).1 location := by
  unfold writeProjectFile
  split
  · exact Tree.SameOutside.refl location
  split
  · exact Tree.SameOutside.refl location
  split
  · exact Tree.SameOutside.refl location
  rename_i safe hsafe
  dsimp only
  split
  · exact Tree.SameOutside.refl location
  by_cases hdot : safe.relative = ['.']
  · obtain ⟨-, -, rest, hsegments, hnames, hrelative⟩ := resolveSafePath_eq_ok hsafe
    have hnil : rest = [] := by
      by_contra hrest
      rw [if_neg hrest] at hrelative
      exact intercalate_ne_dot hnames hrest (hrelative.symm.trans hdot)
    have habsolute : safe.absolute = host.absoluteRoot root := by
      apply AbsolutePath.ext
      rw [hsegments, hnil, List.append_nil]
    rw [habsolute, writeLocked_root hroot.1 hroot.2]
    exact Tree.SameOutside.refl location
  · exact sameOutside_writeLocked (hinside safe hsafe hdot) (hfresh safe hsafe) _ _ _

/-! ## Every mutation -/

/-- A call that fails leaves the tree. -/
theorem toOption_getD_cases (result : Except FsFailure FileTree) (tree : FileTree) :
    result.toOption.getD tree = tree ∨
      ∃ next, result = .ok next ∧ result.toOption.getD tree = next := by
  cases result with
  | error failure => exact Or.inl rfl
  | ok next => exact Or.inr ⟨next, rfl, rfl⟩

theorem node_toOption_getD {result : Except FsFailure FileTree} {place : Location FileName}
    (hclear : ∀ changed, HasPlace host tree root relPath changed → ¬ changed <:+ place)
    (h : ∀ next, result = .ok next →
      ∃ changed, HasPlace host tree root relPath changed ∧ tree.SameOutside next changed) :
    (result.toOption.getD tree).node place = tree.node place := by
  rcases toOption_getD_cases result tree with hsame | ⟨next, hnext, hleft⟩
  · rw [hsame]
  · obtain ⟨changed, hchanged, hsame⟩ := h next hnext
    rw [hleft]
    exact hsame place (hclear changed hchanged)

/-- A checked mutation changes nothing but the places of its paths and what is below them. -/
theorem node_apply {mutation : Mutation} (hchecks : mutation.checksProtection = true)
    {place : Location FileName} (hclear : ∀ relPath ∈ mutation.paths, ∀ changed,
      HasPlace host tree root relPath changed → ¬ changed <:+ place) :
    (mutation.apply host tree root).node place = tree.node place := by
  cases mutation with
  | write relPath content expectedSha allowCreate uuid => cases hchecks
  | mkdir relPath =>
    exact node_toOption_getD (hclear relPath List.mem_cons_self) fun _ ↦ mkdirInRoot_eq_ok
  | create relPath content =>
    exact node_toOption_getD (hclear relPath List.mem_cons_self) fun _ ↦ createFileInRoot_eq_ok
  | delete relPath recursive =>
    exact node_toOption_getD (hclear relPath List.mem_cons_self) fun _ ↦ deleteInRoot_eq_ok
  | rename fromRel toRel =>
    rcases toOption_getD_cases (renameInRoot host tree root fromRel toRel) tree with
      hsame | ⟨next, hnext, hleft⟩
    · rw [Mutation.apply, hsame]
    rw [Mutation.apply, hleft]
    obtain ⟨old, new, hold, hnew, hdone⟩ := renameInRoot_eq_ok hnext
    rcases hdone with rfl | hmoved
    · rfl
    · have hnot := hclear toRel (List.mem_cons_of_mem fromRel List.mem_cons_self) new hnew
      rw [hmoved, Tree.moved_of_not_below hnot,
        if_neg (hclear fromRel List.mem_cons_self old hold)]

theorem sameOutside_apply {location : Location FileName} (mutation : Mutation)
    (hroot : IsCanonicalRoot host tree root location) (hfresh : mutation.IsFresh host tree root)
    (hinside : ∀ relPath ∈ mutation.paths, LeadsInside host tree root location relPath) :
    tree.SameOutside (mutation.apply host tree root) location := by
  have hchecked (hchecks : mutation.checksProtection = true) :
      tree.SameOutside (mutation.apply host tree root) location := by
    intro place houtside
    exact node_apply hchecks fun relPath hpath changed hchanged hbelow ↦
      houtside ((hchanged.inside (hinside relPath hpath)).trans hbelow)
  cases mutation with
  | write relPath content expectedSha allowCreate uuid =>
    exact sameOutside_writeProjectFile hroot (hinside relPath List.mem_cons_self) hfresh content
      expectedSha allowCreate
  | mkdir | create | rename | delete => exact hchecked rfl

theorem same_git_apply {location : Location FileName} (mutation : Mutation)
    (hroot : IsCanonicalRoot host tree root location) (hchecks : mutation.checksProtection = true)
    (hstraight : ∀ relPath ∈ mutation.paths, LeadsStraight host tree root location relPath)
    {place : Location FileName} (hplace : gitName :: location <:+ place) :
    (mutation.apply host tree root).node place = tree.node place :=
  node_apply hchecks fun relPath hpath _ hchanged ↦
    hchanged.not_over_git hroot.1 (hstraight relPath hpath) hplace

theorem isName_p : Segment.IsName ['p'] := by decide

theorem noNul_p : '\x00' ∉ ['p'] := by decide

theorem short_p : (encode ['p']).length ≤ 255 := by decide

def projectName : FileName where
  text := ['p']
  isName := isName_p
  noNul := noNul_p
  short := short_p

def outName : FileName where
  text := ['o', 'u', 't']
  isName := by decide
  noNul := by decide
  short := by decide

def etcName : FileName where
  text := ['e', 't', 'c']
  isName := by decide
  noNul := by decide
  short := by decide

def hostsName : FileName where
  text := ['h', 'o', 's', 't', 's']
  isName := by decide
  noNul := by decide
  short := by decide

def configName : FileName where
  text := ['c', 'o', 'n', 'f', 'i', 'g']
  isName := by decide
  noNul := by decide
  short := by decide

/-- A project `/p` with a repository and a link to a directory outside. -/
def linkedNode (location : Location FileName) : Option (Node FileName (List UInt8)) :=
  if location = [] then some .dir
  else if location = [projectName] then some .dir
  else if location = [etcName] then some .dir
  else if location = [hostsName, etcName] then some (.file [104])
  else if location = [outName, projectName] then
    some (.link { fromRoot := true, steps := [.child etcName] })
  else if location = [gitName, projectName] then some .dir
  else if location = [configName, gitName, projectName] then some (.file [99])
  else none

def linkedTree : FileTree where
  node := linkedNode
  names := [projectName, etcName, hostsName, outName, gitName, configName]
  rooted := rfl
  parents name location h := by
    unfold linkedNode at h
    rw [if_neg (List.cons_ne_nil name location)] at h
    split_ifs at h with hproject hetc hhosts hout hgit hconfig
    · rw [(List.cons_eq_cons.mp hproject).2]
      rfl
    · rw [(List.cons_eq_cons.mp hetc).2]
      rfl
    · rw [(List.cons_eq_cons.mp hhosts).2]
      rfl
    · rw [(List.cons_eq_cons.mp hout).2]
      rfl
    · rw [(List.cons_eq_cons.mp hgit).2]
      rfl
    · rw [(List.cons_eq_cons.mp hconfig).2]
      rfl
    · exact absurd rfl h
  listed location h := by
    unfold linkedNode at h
    split_ifs at h with hroot hproject hetc hhosts hout hgit hconfig
    · rw [hroot]
      decide
    · rw [hproject]
      decide
    · rw [hetc]
      decide
    · rw [hhosts]
      decide
    · rw [hout]
      decide
    · rw [hgit]
      decide
    · rw [hconfig]
      decide
    · exact absurd rfl h

def linkedHost : Host where
  cwd := { segments := [], names := names_nil }
  links := 40
  realpathLinks := 40
  mayList _ := true
  sha256 bytes := if bytes = [99] then "config" else "other"
  collate _ _ := true

/-- A file that holds these bytes. -/
def holdsBytes (bytes : List UInt8) : Option (Node FileName (List UInt8)) → Bool
  | some (.file held) => decide (held = bytes)
  | _ => false

end Flockctl.FsOperations
