import Mathlib.Data.List.Dedup
import Mathlib.Data.List.Infix

/-!
# File trees with symbolic links

A location is the list of the names from an entry up to the root of the file system, innermost
first. A tree says what stands at each location: a directory, a file or a symbolic link; that only
directories have entries is a field. A walk follows the steps of a path from a directory and
replaces every link it meets by the steps of its target, up to a number of links. A walk ends at a
directory or a file, the names of its location lead there without a link, and a walk that may follow
more links ends at the same place.
-/

namespace Flockctl.Files

/-- The errors of the system calls. -/
inductive Errno
  | ENOENT
  | ENOTDIR
  | EISDIR
  | EEXIST
  | ENOTEMPTY
  | ELOOP
  | ENAMETOOLONG
  | EINVAL
  | EBUSY
  | EACCES
  | EPERM
  | ENOSPC
  /-- a text with a NUL byte, which never reaches the system -/
  | ERR_INVALID_ARG_VALUE
  deriving DecidableEq, Repr

/-- A step of a path. -/
inductive Step (Name : Type)
  | self
  | parent
  | child (name : Name)
  /-- a text that names no entry -/
  | unusable (error : Errno)

/-- What a symbolic link contains. -/
structure Target (Name : Type) where
  fromRoot : Bool
  steps : List (Step Name)

inductive Node (Name Content : Type)
  | dir
  | file (content : Content)
  | link (target : Target Name)

variable {Name Content : Type}

/-- The names from an entry up to the root. -/
abbrev Location (Name : Type) := List Name

def Node.isDir : Option (Node Name Content) → Bool
  | some .dir => true
  | _ => false

theorem Node.isDir_iff (node : Option (Node Name Content)) :
    isDir node = true ↔ node = some .dir := by
  match node with
  | none => simp [isDir]
  | some .dir => simp [isDir]
  | some (.file _) => simp [isDir]
  | some (.link _) => simp [isDir]

instance (node : Option (Node Name Content)) : Decidable (node = some .dir) :=
  decidable_of_iff _ (Node.isDir_iff node)

structure Tree (Name Content : Type) where
  node : Location Name → Option (Node Name Content)
  /-- the names that are in use -/
  names : List Name
  rooted : node [] = some .dir
  parents : ∀ name location, node (name :: location) ≠ none → node location = some .dir
  listed : ∀ location, node location ≠ none → ∀ name ∈ location, name ∈ names

namespace Tree

/-! ## Walking -/

/-- What a step from a location comes to. -/
inductive Passage (Name : Type)
  | refused (error : Errno)
  | onto (location : Location Name)
  /-- a link: its steps are taken from `location` -/
  | across (location : Location Name) (steps : List (Step Name))

def enter (tree : Tree Name Content) (location : Location Name) (step : Step Name) :
    Passage Name :=
  if tree.node location = some .dir then
    match step with
    | .self => .onto location
    | .parent => .onto location.tail
    | .unusable error => .refused error
    | .child name =>
      match tree.node (name :: location) with
      | none => .refused .ENOENT
      | some (.link target) => .across (if target.fromRoot then [] else location) target.steps
      | some .dir => .onto (name :: location)
      | some (.file _) => .onto (name :: location)
  else .refused .ENOTDIR

/-- The walk that goes on with `follow` after a link. -/
def walkWith (tree : Tree Name Content)
    (follow : Location Name → List (Step Name) → Except Errno (Location Name)) :
    Location Name → List (Step Name) → Except Errno (Location Name)
  | location, [] => .ok location
  | location, step :: rest =>
    match tree.enter location step with
    | .refused error => .error error
    | .onto next => tree.walkWith follow next rest
    | .across start steps => follow start (steps ++ rest)

/-- The walk that follows so many links. -/
def walk (tree : Tree Name Content) :
    ℕ → Location Name → List (Step Name) → Except Errno (Location Name)
  | 0 => tree.walkWith fun _ _ ↦ .error .ELOOP
  | links + 1 => tree.walkWith (tree.walk links)

variable (tree : Tree Name Content)

/-- Where the walk goes on after a link. -/
def followed : ℕ → Location Name → List (Step Name) → Except Errno (Location Name)
  | 0 => fun _ _ ↦ .error .ELOOP
  | links + 1 => tree.walk links

@[simp] theorem walk_nil (links : ℕ) (location : Location Name) :
    tree.walk links location [] = .ok location := by
  cases links <;> rfl

theorem walk_cons (links : ℕ) (location : Location Name) (step : Step Name)
    (rest : List (Step Name)) :
    tree.walk links location (step :: rest) =
      match tree.enter location step with
      | .refused error => .error error
      | .onto next => tree.walk links next rest
      | .across start steps => tree.followed links start (steps ++ rest) := by
  cases links <;> rfl

/-- A directory or a file stands at the location. -/
def Stands (location : Location Name) : Prop :=
  tree.node location = some .dir ∨ ∃ content, tree.node location = some (.file content)

variable {tree}

theorem Stands.parent {name : Name} {location : Location Name}
    (h : tree.Stands (name :: location)) : tree.node location = some .dir := by
  apply tree.parents name location
  rcases h with hdir | ⟨content, hfile⟩
  · rw [hdir]
    exact Option.some_ne_none _
  · rw [hfile]
    exact Option.some_ne_none _

theorem enter_child {name : Name} {location : Location Name} (h : tree.Stands (name :: location)) :
    tree.enter location (.child name) = .onto (name :: location) := by
  rw [enter, if_pos h.parent]
  rcases h with hdir | ⟨content, hfile⟩
  · simp only [hdir]
  · simp only [hfile]

theorem walk_child {name : Name} {location : Location Name} (h : tree.Stands (name :: location))
    (links : ℕ) (rest : List (Step Name)) :
    tree.walk links location (.child name :: rest) = tree.walk links (name :: location) rest := by
  rw [walk_cons, enter_child h]

/-- A name is refused, entered or the name of a link. -/
theorem enter_child_cases (tree : Tree Name Content) (location : Location Name) (name : Name) :
    (∃ error, tree.enter location (.child name) = .refused error) ∨
      tree.enter location (.child name) = .onto (name :: location) ∨
        ∃ target, tree.node (name :: location) = some (.link target) := by
  by_cases hdir : tree.node location = some .dir
  · cases hnode : tree.node (name :: location) with
    | none =>
      left
      exact ⟨.ENOENT, by simp only [enter, hdir, if_true, hnode]⟩
    | some entry =>
      right
      cases entry with
      | link target => exact Or.inr ⟨target, rfl⟩
      | dir => exact Or.inl (enter_child (Or.inl hnode))
      | file content => exact Or.inl (enter_child (Or.inr ⟨content, hnode⟩))
  · left
    exact ⟨.ENOTDIR, by simp only [enter, hdir, if_false]⟩

theorem stands_tail {location : Location Name} (h : tree.node location = some .dir) :
    tree.node location.tail = some .dir := by
  cases location with
  | nil => exact h
  | cons name parent => exact Stands.parent (Or.inl h)

/-- A step arrives at a directory or a file. -/
theorem stands_of_enter {location next : Location Name} {step : Step Name}
    (h : tree.enter location step = .onto next) : tree.Stands next := by
  unfold enter at h
  split at h
  · rename_i hdir
    cases step with
    | self =>
      cases h
      exact Or.inl hdir
    | parent =>
      cases h
      exact Or.inl (stands_tail hdir)
    | unusable error => cases h
    | child name =>
      cases hnode : tree.node (name :: location) with
      | none => simp only [hnode, reduceCtorEq] at h
      | some node =>
        cases node with
        | link target => simp only [hnode, reduceCtorEq] at h
        | dir =>
          simp only [hnode, Passage.onto.injEq] at h
          rw [← h]
          exact Or.inl hnode
        | file content =>
          simp only [hnode, Passage.onto.injEq] at h
          rw [← h]
          exact Or.inr ⟨content, hnode⟩
  · cases h

/-- The steps of a link are taken from a directory. -/
theorem dir_of_enter {location start : Location Name} {step : Step Name} {steps : List (Step Name)}
    (h : tree.enter location step = .across start steps) : tree.node start = some .dir := by
  unfold enter at h
  split at h
  · rename_i hdir
    cases step with
    | self => cases h
    | parent => cases h
    | unusable error => cases h
    | child name =>
      cases hnode : tree.node (name :: location) with
      | none => simp only [hnode, reduceCtorEq] at h
      | some node =>
        cases node with
        | dir => simp only [hnode, reduceCtorEq] at h
        | file content => simp only [hnode, reduceCtorEq] at h
        | link target =>
          simp only [hnode, Passage.across.injEq] at h
          rw [← h.1]
          split
          · exact tree.rooted
          · exact hdir
  · cases h

/-- The induction along a walk: over the number of links, and over the steps below each. -/
@[elab_as_elim]
theorem walk_induction (tree : Tree Name Content) {motive : ℕ → Location Name → List (Step Name) → Prop}
    (arrived : ∀ links location, motive links location [])
    (refused : ∀ links location step rest error, tree.enter location step = .refused error →
      motive links location (step :: rest))
    (onto : ∀ links location step rest next, tree.enter location step = .onto next →
      motive links next rest → motive links location (step :: rest))
    (tooMany : ∀ location step rest start steps, tree.enter location step = .across start steps →
      motive 0 location (step :: rest))
    (across : ∀ links location step rest start steps,
      tree.enter location step = .across start steps → motive links start (steps ++ rest) →
        motive (links + 1) location (step :: rest))
    (links : ℕ) (location : Location Name) (steps : List (Step Name)) :
    motive links location steps := by
  induction links generalizing location steps with
  | zero =>
    induction steps generalizing location with
    | nil => exact arrived 0 location
    | cons step rest ih =>
      cases hstep : tree.enter location step with
      | refused error => exact refused 0 location step rest error hstep
      | onto next => exact onto 0 location step rest next hstep (ih next)
      | across start steps => exact tooMany location step rest start steps hstep
  | succ links ihlinks =>
    induction steps generalizing location with
    | nil => exact arrived (links + 1) location
    | cons step rest ih =>
      cases hstep : tree.enter location step with
      | refused error => exact refused (links + 1) location step rest error hstep
      | onto next => exact onto (links + 1) location step rest next hstep (ih next)
      | across start steps =>
        exact across links location step rest start steps hstep (ihlinks start (steps ++ rest))

/-- A walk arrives at a directory or a file. -/
theorem stands_of_walk {links : ℕ} {location arrived : Location Name} {steps : List (Step Name)}
    (hstart : tree.Stands location) (h : tree.walk links location steps = .ok arrived) :
    tree.Stands arrived := by
  induction links, location, steps using walk_induction tree with
  | arrived links location =>
    rw [walk_nil] at h
    cases h
    exact hstart
  | refused links location step rest error hstep =>
    simp only [walk_cons, hstep, reduceCtorEq] at h
  | onto links location step rest next hstep ih =>
    simp only [walk_cons, hstep] at h
    exact ih (stands_of_enter hstep) h
  | tooMany location step rest start steps hstep =>
    simp only [walk_cons, hstep, followed, reduceCtorEq] at h
  | across links location step rest start steps hstep ih =>
    simp only [walk_cons, hstep, followed] at h
    exact ih (Or.inl (dir_of_enter hstep)) h

/-- A walk that may follow one link more ends as before unless it has met too many. -/
theorem walk_succ (tree : Tree Name Content) (links : ℕ) (location : Location Name)
    (steps : List (Step Name)) :
    tree.walk links location steps = .error .ELOOP ∨
      tree.walk (links + 1) location steps = tree.walk links location steps := by
  induction links, location, steps using walk_induction tree with
  | arrived links location =>
    right
    rw [walk_nil, walk_nil]
  | refused links location step rest error hstep =>
    right
    simp only [walk_cons, hstep]
  | onto links location step rest next hstep ih => simpa only [walk_cons, hstep] using ih
  | tooMany location step rest start steps hstep =>
    left
    simp only [walk_cons, hstep, followed]
  | across links location step rest start steps hstep ih =>
    simpa only [walk_cons, hstep, followed] using ih

theorem walk_mono {links more : ℕ} (hle : links ≤ more) {location : Location Name}
    {steps : List (Step Name)} (h : tree.walk links location steps ≠ .error .ELOOP) :
    tree.walk more location steps = tree.walk links location steps := by
  induction more, hle using Nat.le_induction with
  | base => rfl
  | succ more hmore ih =>
    have hsame := (walk_succ tree more location steps).resolve_left (by rwa [ih])
    rw [hsame, ih]

/-- Two walks over the same steps that both arrive, arrive at the same place, and one that may
follow fewer links fails for their number only. -/
theorem walk_eq_of_ok {links : ℕ} {location arrived : Location Name}
    {steps : List (Step Name)} (h : tree.walk links location steps = .ok arrived) (other : ℕ) :
    tree.walk other location steps = .ok arrived ∨
      tree.walk other location steps = .error .ELOOP := by
  rcases Nat.le_total links other with hle | hle
  · left
    rw [walk_mono hle (by simp [h]), h]
  · by_cases hloop : tree.walk other location steps = .error .ELOOP
    · exact Or.inr hloop
    · left
      rw [← walk_mono hle hloop, h]

/-- A longer path goes on where the shorter one arrives, with the links that are left. -/
theorem walk_append {links : ℕ} {location arrived : Location Name} {steps : List (Step Name)}
    (h : tree.walk links location steps = .ok arrived) :
    ∃ left ≤ links, ∀ rest, tree.walk links location (steps ++ rest) =
      tree.walk left arrived rest := by
  induction links, location, steps using walk_induction tree with
  | arrived links location =>
    rw [walk_nil] at h
    cases h
    exact ⟨links, Nat.le_refl links, fun rest ↦ by rw [List.nil_append]⟩
  | refused links location step rest error hstep =>
    simp only [walk_cons, hstep, reduceCtorEq] at h
  | onto links location step rest next hstep ih =>
    simp only [walk_cons, hstep] at h
    obtain ⟨left, hleft, hrest⟩ := ih h
    refine ⟨left, hleft, fun more ↦ ?_⟩
    simp only [List.cons_append, walk_cons, hstep, hrest more]
  | tooMany location step rest start steps hstep =>
    simp only [walk_cons, hstep, followed, reduceCtorEq] at h
  | across links location step rest start steps hstep ih =>
    simp only [walk_cons, hstep, followed] at h
    obtain ⟨left, hleft, hrest⟩ := ih h
    refine ⟨left, Nat.le_succ_of_le hleft, fun more ↦ ?_⟩
    simp only [List.cons_append, walk_cons, hstep, followed, ← List.append_assoc, hrest more]

/-- A path that fails, fails however it goes on. -/
theorem walk_append_of_error {links : ℕ} {location : Location Name} {steps : List (Step Name)}
    {error : Errno} (h : tree.walk links location steps = .error error)
    (rest : List (Step Name)) : tree.walk links location (steps ++ rest) = .error error := by
  induction links, location, steps using walk_induction tree with
  | arrived links location =>
    rw [walk_nil] at h
    cases h
  | refused links location step more error hstep =>
    simpa only [List.cons_append, walk_cons, hstep] using h
  | onto links location step more next hstep ih =>
    simp only [walk_cons, hstep] at h
    simp only [List.cons_append, walk_cons, hstep, ih h]
  | tooMany location step more start steps hstep =>
    simpa only [List.cons_append, walk_cons, hstep, followed] using h
  | across links location step more start steps hstep ih =>
    simp only [walk_cons, hstep, followed] at h
    simp only [List.cons_append, walk_cons, hstep, followed, ← List.append_assoc, ih h]

/-! ## Locations as paths -/

/-- The steps from the root to a location. -/
def pathTo (location : Location Name) : List (Step Name) := location.reverse.map .child

@[simp] theorem pathTo_cons (name : Name) (location : Location Name) :
    pathTo (name :: location) = pathTo location ++ [.child name] := by
  rw [pathTo, List.reverse_cons, List.map_append]
  rfl

/-- The names of a place below a directory lead there. -/
theorem walk_pathTo_below {place directory : Location Name}
    (h : tree.Stands (place ++ directory)) (links : ℕ) (rest : List (Step Name)) :
    tree.walk links directory (pathTo place ++ rest) =
      tree.walk links (place ++ directory) rest := by
  induction place generalizing rest with
  | nil => rfl
  | cons name place ih =>
    rw [pathTo_cons, List.append_assoc, List.singleton_append, ih (Or.inl h.parent)]
    exact walk_child h links rest

/-- The names of a location lead there. -/
theorem walk_pathTo {location : Location Name} (h : tree.Stands location) (links : ℕ)
    (rest : List (Step Name)) :
    tree.walk links [] (pathTo location ++ rest) = tree.walk links location rest := by
  have hbelow : tree.Stands (location ++ []) := by rwa [List.append_nil]
  rw [walk_pathTo_below hbelow, List.append_nil]

theorem walk_pathTo_self {location : Location Name} (h : tree.Stands location) (links : ℕ) :
    tree.walk links [] (pathTo location) = .ok location := by
  have hwalk := walk_pathTo h links []
  rwa [List.append_nil, walk_nil] at hwalk

/-- Where a path leads, however many links it takes. -/
def LeadsTo (tree : Tree Name Content) (path : List (Step Name)) (location : Location Name) :
    Prop :=
  ∃ links, tree.walk links [] path = .ok location

theorem walk_of_leadsTo {path : List (Step Name)} {location : Location Name}
    (h : tree.LeadsTo path location) (links : ℕ) :
    tree.walk links [] path = .ok location ∨ tree.walk links [] path = .error .ELOOP := by
  obtain ⟨enough, henough⟩ := h
  exact walk_eq_of_ok henough links

theorem LeadsTo.eq_of_walk {path : List (Step Name)} {location other : Location Name}
    (h : tree.LeadsTo path location) {links : ℕ} (hwalk : tree.walk links [] path = .ok other) :
    other = location := by
  rcases walk_of_leadsTo h links with hok | hloop
  · exact Except.ok.inj (hwalk.symm.trans hok)
  · rw [hwalk] at hloop
    cases hloop

/-- A tree in which nothing that stands in the other has changed. -/
def Extends (tree next : Tree Name Content) : Prop :=
  ∀ place entry, tree.node place = some entry → next.node place = some entry

theorem enter_of_extends {next : Tree Name Content} (hextends : tree.Extends next)
    {location : Location Name} {step : Step Name}
    (h : ∀ error, tree.enter location step ≠ .refused error) :
    next.enter location step = tree.enter location step := by
  by_cases hdir : tree.node location = some .dir
  · unfold enter
    rw [if_pos hdir, if_pos (hextends location .dir hdir)]
    cases step with
    | self => rfl
    | parent => rfl
    | unusable error => rfl
    | child name =>
      cases hnode : tree.node (name :: location) with
      | none =>
        refine absurd ?_ (h .ENOENT)
        simp only [enter, hdir, if_true, hnode]
      | some entry => simp only [hextends _ _ hnode, hnode]
  · refine absurd ?_ (h .ENOTDIR)
    unfold enter
    rw [if_neg hdir]

/-- A walk that arrives looks only at what stands. -/
theorem walk_of_extends {next : Tree Name Content} (hextends : tree.Extends next) {links : ℕ}
    {location arrived : Location Name} {steps : List (Step Name)}
    (h : tree.walk links location steps = .ok arrived) :
    next.walk links location steps = .ok arrived := by
  induction links, location, steps using walk_induction tree with
  | arrived links location => rwa [walk_nil] at h ⊢
  | refused links location step rest error hstep =>
    simp only [walk_cons, hstep, reduceCtorEq] at h
  | onto links location step rest onward hstep ih =>
    simp only [walk_cons, hstep] at h
    rw [walk_cons, enter_of_extends hextends (by simp [hstep]), hstep]
    exact ih h
  | tooMany location step rest start steps hstep =>
    simp only [walk_cons, hstep, followed, reduceCtorEq] at h
  | across links location step rest start steps hstep ih =>
    simp only [walk_cons, hstep, followed] at h
    rw [walk_cons, enter_of_extends hextends (by simp [hstep]), hstep]
    exact ih h

/-! ## Changes -/

section Changes

variable [DecidableEq Name]

/-- The names of the entries of a directory. -/
def children (tree : Tree Name Content) (location : Location Name) : List Name :=
  tree.names.dedup.filter fun name ↦ (tree.node (name :: location)).isSome

theorem mem_children {location : Location Name} {name : Name} :
    name ∈ tree.children location ↔ tree.node (name :: location) ≠ none := by
  rw [children, List.mem_filter, List.mem_dedup, Option.isSome_iff_ne_none, and_iff_right_iff_imp]
  intro h
  exact tree.listed (name :: location) h name List.mem_cons_self

/-- The tree with an entry that is new or takes the place of a file or a link. -/
def put (tree : Tree Name Content) (directory : Location Name) (name : Name)
    (entry : Node Name Content) (hdir : tree.node directory = some .dir)
    (hplace : tree.node (name :: directory) ≠ some .dir) : Tree Name Content where
  node location := if location = name :: directory then some entry else tree.node location
  names := name :: tree.names
  rooted := by rw [if_neg (List.cons_ne_nil name directory).symm, tree.rooted]
  parents other location h := by
    have hparent : tree.node location = some .dir := by
      split at h
      · rename_i heq
        rw [(List.cons_eq_cons.mp heq).2]
        exact hdir
      · exact tree.parents other location h
    have hne : location ≠ name :: directory := fun heq ↦ hplace (heq ▸ hparent)
    rw [if_neg hne, hparent]
  listed location h other hother := by
    split at h
    · rename_i heq
      rw [heq] at hother
      rcases List.mem_cons.mp hother with rfl | hmem
      · exact List.mem_cons_self
      · apply List.mem_cons_of_mem
        exact tree.listed directory (by simp [hdir]) other hmem
    · exact List.mem_cons_of_mem name (tree.listed location h other hother)

/-- The tree without an entry and all that is below it. -/
def prune (tree : Tree Name Content) (directory : Location Name) (name : Name) :
    Tree Name Content where
  node location := if name :: directory <:+ location then none else tree.node location
  names := tree.names
  rooted := by
    rw [if_neg, tree.rooted]
    intro h
    exact List.cons_ne_nil name directory (List.suffix_nil.mp h)
  parents other location h := by
    split at h
    · exact absurd rfl h
    · rename_i houtside
      rw [if_neg fun hbelow ↦ houtside (hbelow.trans (List.suffix_cons other location))]
      exact tree.parents other location h
  listed location h := by
    split at h
    · exact absurd rfl h
    · exact tree.listed location h

theorem prune_node_of_not_below {directory location : Location Name} {name : Name}
    (h : ¬ name :: directory <:+ location) :
    (tree.prune directory name).node location = tree.node location := if_neg h

/-- What stands at a location after the entry at `source` has moved to `place`. -/
def moved (tree : Tree Name Content) (source place location : Location Name) :
    Option (Node Name Content) :=
  match place.isSuffixOf? location with
  | some rest => tree.node (rest ++ source)
  | none => if source <:+ location then none else tree.node location

theorem moved_below (source place rest : Location Name) :
    tree.moved source place (rest ++ place) = tree.node (rest ++ source) := by
  have hrest : place.isSuffixOf? (rest ++ place) = some rest :=
    List.isSuffixOf?_eq_some_iff_append_eq.mpr rfl
  simp only [moved, hrest]

theorem moved_of_not_below {source place location : Location Name} (h : ¬ place <:+ location) :
    tree.moved source place location =
      if source <:+ location then none else tree.node location := by
  have hnone : place.isSuffixOf? location = none := by
    rw [Option.eq_none_iff_forall_not_mem]
    intro rest hrest
    exact h ⟨rest, List.isSuffixOf?_eq_some_iff_append_eq.mp hrest⟩
  simp only [moved, hnone]

/-- The tree after an entry, with all that is below it, has moved to another place. -/
def move (tree : Tree Name Content) (source directory : Location Name) (name : Name)
    (hdir : tree.node directory = some .dir) (hsource : ¬ source <:+ directory) :
    Tree Name Content where
  node := tree.moved source (name :: directory)
  names := name :: tree.names
  rooted := by
    rw [moved_of_not_below, if_neg, tree.rooted]
    · intro h
      rw [List.suffix_nil.mp h] at hsource
      exact hsource List.nil_suffix
    · intro h
      exact List.cons_ne_nil name directory (List.suffix_nil.mp h)
  parents other location h := by
    by_cases hbelow : name :: directory <:+ other :: location
    · rcases List.suffix_cons_iff.mp hbelow with heq | hparent
      · -- the entry itself: its directory has not moved
        obtain ⟨rfl, rfl⟩ := List.cons_eq_cons.mp heq
        have hown : ¬ name :: directory <:+ directory := fun hown ↦ by
          have hlength := hown.length_le
          rw [List.length_cons] at hlength
          omega
        rw [moved_of_not_below hown, if_neg hsource, hdir]
      · obtain ⟨rest, rfl⟩ := hparent
        rw [moved_below]
        apply tree.parents other
        rwa [← List.cons_append, moved_below] at h
    · have hparent : ¬ name :: directory <:+ location := fun hparent ↦
        hbelow (hparent.trans (List.suffix_cons other location))
      rw [moved_of_not_below hbelow] at h
      rw [moved_of_not_below hparent]
      split at h
      · exact absurd rfl h
      · rename_i houtside
        rw [if_neg fun hsuffix ↦ houtside (hsuffix.trans (List.suffix_cons other location))]
        exact tree.parents other location h
  listed location h other hother := by
    by_cases hbelow : name :: directory <:+ location
    · obtain ⟨rest, rfl⟩ := hbelow
      rw [moved_below] at h
      rcases List.mem_append.mp hother with hrest | hplace
      · exact List.mem_cons_of_mem name
          (tree.listed _ h other (List.mem_append_left source hrest))
      · rcases List.mem_cons.mp hplace with rfl | hmem
        · exact List.mem_cons_self
        · exact List.mem_cons_of_mem name
            (tree.listed directory (by simp [hdir]) other hmem)
    · rw [moved_of_not_below hbelow] at h
      split at h
      · exact absurd rfl h
      · exact List.mem_cons_of_mem name (tree.listed location h other hother)

end Changes

end Tree

end Flockctl.Files
