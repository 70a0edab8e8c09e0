import Flockctl.Collections.Fallible
import Flockctl.Files.Tree

/-!
# System calls on a file tree

The calls that look at a path or change its entry. A call that changes an entry follows the links
on the way to its directory and none at the entry itself; all it changes is that entry and what is
below it.
-/

namespace Flockctl.Files

open Collections

namespace Tree

variable {Name Content : Type} (tree : Tree Name Content) (links : ℕ)

/-- A name in a directory. -/
structure Slot where
  directory : Location Name
  name : Name
  isDir : tree.node directory = some .dir

variable {tree} in
def Slot.location (slot : tree.Slot) : Location Name := slot.name :: slot.directory

/-- The last step of a path, in the directory that the others lead to. -/
def slot (path : List (Step Name)) : Except Errno tree.Slot := do
  let directory ← tree.walk links [] path.dropLast
  if isDir : tree.node directory = some .dir then
    match path.getLast? with
    | some (.child name) => .ok ⟨directory, name, isDir⟩
    | some (.unusable error) => .error error
    | _ => .error .EBUSY
  else .error .ENOTDIR

/-- `stat`: the location a path leads to. -/
def stat (path : List (Step Name)) : Except Errno (Location Name) := tree.walk links [] path

/-- `lstat`: what the last step of a path names. -/
def lstat (path : List (Step Name)) : Except Errno (Node Name Content) := do
  let slot ← tree.slot links path
  match tree.node slot.location with
  | none => .error .ENOENT
  | some entry => .ok entry

/-- `readFile`. -/
def readFile (path : List (Step Name)) : Except Errno Content := do
  let location ← tree.stat links path
  match tree.node location with
  | some (.file content) => .ok content
  -- no walk ends at a link or where nothing is
  | _ => .error .EISDIR

variable [DecidableEq Name]

/-- `readdir`. -/
def readdir (path : List (Step Name)) : Except Errno (List Name) := do
  let location ← tree.stat links path
  if tree.node location = some .dir then .ok (tree.children location) else .error .ENOTDIR

variable {tree} in
/-- A new entry. -/
def Slot.add (slot : tree.Slot) (entry : Node Name Content) : Except Errno (Tree Name Content) :=
  if free : tree.node slot.location = none then
    .ok (tree.put slot.directory slot.name entry slot.isDir fun taken ↦
      Option.some_ne_none _ (taken.symm.trans free))
  else .error .EEXIST

/-- `mkdir`. -/
def mkdir (path : List (Step Name)) : Except Errno (Tree Name Content) := do
  let slot ← tree.slot links path
  slot.add .dir

/-- `writeFile` with the flag `wx`. -/
def createFile (path : List (Step Name)) (content : Content) :
    Except Errno (Tree Name Content) := do
  let slot ← tree.slot links path
  slot.add (.file content)

variable {tree} in
/-- A file that is new or has a new content. -/
def Slot.fill (slot : tree.Slot) (content : Content) : Except Errno (Tree Name Content) :=
  if taken : tree.node slot.location = some .dir then .error .EISDIR
  else .ok (tree.put slot.directory slot.name (.file content) slot.isDir taken)

/-- `writeFile` with the flag `w`. -/
def writeFile (path : List (Step Name)) (content : Content) :
    Except Errno (Tree Name Content) := do
  let slot ← tree.slot links path
  match tree.node slot.location with
  | some (.link _) =>
    -- the file behind the link; a target that is missing is not made
    let location ← tree.stat links path
    let target ← tree.slot links (pathTo location)
    target.fill content
  | _ => slot.fill content

/-- Whether an entry may take the place of another. -/
def mayReplace (source place : Location Name) : Except Errno Unit :=
  match tree.node source, tree.node place with
  | none, _ => .error .ENOENT
  | some _, none => .ok ()
  | some .dir, some .dir => if tree.children place = [] then .ok () else .error .ENOTEMPTY
  | some .dir, some _ => .error .ENOTDIR
  | some _, some .dir => .error .EISDIR
  | some _, some _ => .ok ()

/-- `rename`. -/
def rename (source place : List (Step Name)) : Except Errno (Tree Name Content) := do
  let old ← tree.slot links source
  let new ← tree.slot links place
  if below : old.location <:+ new.directory then
    if tree.node old.location = none then .error .ENOENT else .error .EINVAL
  else if old.location = new.location then
    if tree.node old.location = none then .error .ENOENT else .ok tree
  else do
    tree.mayReplace old.location new.location
    .ok (tree.move old.location new.directory new.name new.isDir below)

/-- `unlink`. -/
def unlink (path : List (Step Name)) : Except Errno (Tree Name Content) := do
  let slot ← tree.slot links path
  match tree.node slot.location with
  | none => .error .ENOENT
  | some .dir => .error .EISDIR
  | some _ => .ok (tree.prune slot.directory slot.name)

/-- `rmdir`. -/
def rmdir (path : List (Step Name)) : Except Errno (Tree Name Content) := do
  let slot ← tree.slot links path
  match tree.node slot.location with
  | none => .error .ENOENT
  | some .dir =>
    if tree.children slot.location = [] then .ok (tree.prune slot.directory slot.name)
    else .error .ENOTEMPTY
  | some _ => .error .ENOTDIR

/-- `rm` with all that is below. -/
def rmAll (path : List (Step Name)) : Except Errno (Tree Name Content) := do
  let slot ← tree.slot links path
  match tree.node slot.location with
  | none => .error .ENOENT
  | some _ => .ok (tree.prune slot.directory slot.name)

section

variable {tree links}

omit [DecidableEq Name]

theorem slot_eq_ok {path : List (Step Name)} {slot : tree.Slot}
    (h : tree.slot links path = .ok slot) :
    tree.walk links [] path.dropLast = .ok slot.directory ∧
      path.getLast? = some (.child slot.name) := by
  obtain ⟨directory, hwalk, hslot⟩ := bind_eq_ok_iff.mp h
  split at hslot
  · split at hslot
    · rename_i name hname
      cases hslot
      exact ⟨hwalk, hname⟩
    · cases hslot
    · cases hslot
  · cases hslot

/-- What is read stands where the path leads. -/
theorem readFile_eq_ok_iff {path : List (Step Name)} {content : Content} :
    tree.readFile links path = .ok content ↔
      ∃ location, tree.stat links path = .ok location ∧
        tree.node location = some (.file content) := by
  rw [readFile, bind_eq_ok_iff]
  constructor
  · rintro ⟨location, hstat, hread⟩
    refine ⟨location, hstat, ?_⟩
    split at hread
    · rename_i found hfound
      cases hread
      exact hfound
    · cases hread
  · rintro ⟨location, hstat, hnode⟩
    refine ⟨location, hstat, ?_⟩
    rw [hnode]

end

variable {tree links}

theorem Slot.add_eq_ok {slot : tree.Slot} {entry : Node Name Content} {next : Tree Name Content}
    (h : slot.add entry = .ok next) :
    tree.node slot.location = none ∧
      ∀ place, next.node place = if place = slot.location then some entry else tree.node place := by
  unfold Slot.add at h
  split at h
  · rename_i free
    cases h
    exact ⟨free, fun place ↦ rfl⟩
  · cases h

theorem Slot.fill_eq_ok {slot : tree.Slot} {content : Content} {next : Tree Name Content}
    (h : slot.fill content = .ok next) :
    tree.node slot.location ≠ some .dir ∧
      ∀ place, next.node place =
        if place = slot.location then some (.file content) else tree.node place := by
  unfold Slot.fill at h
  split at h
  · cases h
  · rename_i taken
    cases h
    exact ⟨taken, fun place ↦ rfl⟩

theorem mkdir_eq_ok {path : List (Step Name)} {next : Tree Name Content}
    (h : tree.mkdir links path = .ok next) :
    ∃ slot, tree.slot links path = .ok slot ∧ tree.node slot.location = none ∧
      ∀ place, next.node place = if place = slot.location then some .dir else tree.node place := by
  obtain ⟨slot, hslot, hadd⟩ := bind_eq_ok_iff.mp h
  exact ⟨slot, hslot, slot.add_eq_ok hadd⟩

theorem createFile_eq_ok {path : List (Step Name)} {content : Content} {next : Tree Name Content}
    (h : tree.createFile links path content = .ok next) :
    ∃ slot, tree.slot links path = .ok slot ∧ tree.node slot.location = none ∧
      ∀ place, next.node place =
        if place = slot.location then some (.file content) else tree.node place := by
  obtain ⟨slot, hslot, hadd⟩ := bind_eq_ok_iff.mp h
  exact ⟨slot, hslot, slot.add_eq_ok hadd⟩

/-- Where nothing is, a written file is new. -/
theorem writeFile_eq_ok {path : List (Step Name)} {content : Content} {next : Tree Name Content}
    {slot : tree.Slot} (hslot : tree.slot links path = .ok slot)
    (hfree : tree.node slot.location = none)
    (h : tree.writeFile links path content = .ok next) :
    ∀ place, next.node place =
      if place = slot.location then some (.file content) else tree.node place := by
  obtain ⟨found, hfound, hfill⟩ := bind_eq_ok_iff.mp h
  obtain rfl : found = slot := Except.ok.inj (hfound.symm.trans hslot)
  rw [hfree] at hfill
  exact (found.fill_eq_ok hfill).2

theorem mayReplace_source {source place : Location Name}
    (h : tree.mayReplace source place = .ok ()) : tree.node source ≠ none := by
  intro hnone
  simp only [mayReplace, hnone, reduceCtorEq] at h

theorem rename_eq_ok {source place : List (Step Name)} {next : Tree Name Content}
    (h : tree.rename links source place = .ok next) :
    ∃ old new, tree.slot links source = .ok old ∧ tree.slot links place = .ok new ∧
      tree.node old.location ≠ none ∧
      (old.location = new.location ∧ next = tree ∨
        tree.mayReplace old.location new.location = .ok () ∧
          ∀ place, next.node place = tree.moved old.location new.location place) := by
  obtain ⟨old, hold, hrest⟩ := bind_eq_ok_iff.mp h
  obtain ⟨new, hnew, hdone⟩ := bind_eq_ok_iff.mp hrest
  refine ⟨old, new, hold, hnew, ?_⟩
  split at hdone
  · split at hdone
    · cases hdone
    · cases hdone
  · split at hdone
    · split at hdone
      · cases hdone
      · rename_i hsame hsome
        cases hdone
        exact ⟨hsome, Or.inl ⟨hsame, rfl⟩⟩
    · obtain ⟨⟨⟩, hmay, hmoved⟩ := bind_eq_ok_iff.mp hdone
      cases hmoved
      exact ⟨mayReplace_source hmay, Or.inr ⟨hmay, fun place ↦ rfl⟩⟩

theorem unlink_eq_ok {path : List (Step Name)} {next : Tree Name Content}
    (h : tree.unlink links path = .ok next) :
    ∃ slot, tree.slot links path = .ok slot ∧ tree.node slot.location ≠ some .dir ∧
      next = tree.prune slot.directory slot.name := by
  obtain ⟨slot, hslot, hprune⟩ := bind_eq_ok_iff.mp h
  refine ⟨slot, hslot, ?_⟩
  split at hprune
  · cases hprune
  · cases hprune
  · rename_i entry hplain hentry
    cases hprune
    exact ⟨fun hdir ↦ hplain (Option.some.inj (hentry.symm.trans hdir)), rfl⟩

theorem rmdir_eq_ok {path : List (Step Name)} {next : Tree Name Content}
    (h : tree.rmdir links path = .ok next) :
    ∃ slot, tree.slot links path = .ok slot ∧ next = tree.prune slot.directory slot.name := by
  obtain ⟨slot, hslot, hprune⟩ := bind_eq_ok_iff.mp h
  refine ⟨slot, hslot, ?_⟩
  split at hprune
  · cases hprune
  · split at hprune
    · cases hprune
      rfl
    · cases hprune
  · cases hprune

theorem rmAll_eq_ok {path : List (Step Name)} {next : Tree Name Content}
    (h : tree.rmAll links path = .ok next) :
    ∃ slot, tree.slot links path = .ok slot ∧ next = tree.prune slot.directory slot.name := by
  obtain ⟨slot, hslot, hprune⟩ := bind_eq_ok_iff.mp h
  refine ⟨slot, hslot, ?_⟩
  split at hprune
  · cases hprune
  · cases hprune
    rfl

/-- Nothing has changed but at the location and below it. -/
def SameOutside (tree next : Tree Name Content) (location : Location Name) : Prop :=
  ∀ place, ¬ location <:+ place → next.node place = tree.node place

omit [DecidableEq Name] in
theorem SameOutside.refl (location : Location Name) : tree.SameOutside tree location :=
  fun _ _ ↦ rfl

omit [DecidableEq Name] in
/-- What is changed below a location is changed below the locations over it. -/
theorem SameOutside.mono {next : Tree Name Content} {location above : Location Name}
    (h : tree.SameOutside next location) (hover : above <:+ location) :
    tree.SameOutside next above :=
  fun place hplace ↦ h place fun hbelow ↦ hplace (hover.trans hbelow)

omit [DecidableEq Name] in
theorem SameOutside.trans {middle next : Tree Name Content} {location : Location Name}
    (hfirst : tree.SameOutside middle location) (hsecond : middle.SameOutside next location) :
    tree.SameOutside next location :=
  fun place hplace ↦ (hsecond place hplace).trans (hfirst place hplace)

theorem sameOutside_of_replaced {next : Tree Name Content} {location : Location Name}
    {entry : Option (Node Name Content)}
    (h : ∀ place, next.node place = if place = location then entry else tree.node place) :
    tree.SameOutside next location := by
  intro place hplace
  rw [h, if_neg]
  rintro rfl
  exact hplace List.suffix_rfl

theorem sameOutside_prune (slot : tree.Slot) :
    tree.SameOutside (tree.prune slot.directory slot.name) slot.location :=
  fun _ hplace ↦ prune_node_of_not_below hplace

/-- A renaming changes nothing but at its two places and below them. -/
theorem sameOutside_moved {next : Tree Name Content} {old new above : Location Name}
    (h : ∀ place, next.node place = tree.moved old new place) (hold : above <:+ old)
    (hnew : above <:+ new) : tree.SameOutside next above := by
  intro place hplace
  rw [h, moved_of_not_below fun hbelow ↦ hplace (hnew.trans hbelow),
    if_neg fun hbelow ↦ hplace (hold.trans hbelow)]

end Tree

end Flockctl.Files
