import Flockctl.Collections.JsText

/-!
# Paths

An absolute path is the list of the names that lead to a file from the root; that each of them is
a proper name is a field, so two absolute paths are equal exactly when they name the same file of
a file system without symbolic links. Resolving a path text against a directory walks through its
segments: an empty one and `.` stay, `..` goes to the parent, a name goes to the entry. Rendering
an absolute path and resolving the text gives the path back, from whatever directory.
-/

namespace Flockctl.Paths

abbrev Segment := List Char

/-- A name of a directory entry. -/
def Segment.IsName (segment : Segment) : Prop :=
  segment ≠ [] ∧ segment ≠ ['.'] ∧ segment ≠ ['.', '.'] ∧ '/' ∉ segment

instance (segment : Segment) : Decidable segment.IsName :=
  inferInstanceAs (Decidable (segment ≠ [] ∧ segment ≠ ['.'] ∧ segment ≠ ['.', '.'] ∧
    '/' ∉ segment))

/-- The names that lead from the root to a file, outermost first. -/
@[ext]
structure AbsolutePath where
  segments : List Segment
  names : ∀ segment ∈ segments, Segment.IsName segment

theorem names_nil : ∀ segment ∈ ([] : List Segment), Segment.IsName segment :=
  fun _ h ↦ absurd h List.not_mem_nil

instance : DecidableEq AbsolutePath := fun path other ↦
  decidable_of_iff (path.segments = other.segments) AbsolutePath.ext_iff.symm

/-- One step from a directory, which is given by its names, innermost first. -/
def enter (directory : List Segment) (segment : Segment) : List Segment :=
  if segment = [] ∨ segment = ['.'] then directory
  else if segment = ['.', '.'] then directory.tail
  else segment :: directory

/-- The steps of a path text. -/
def walk (directory : List Segment) (path : List Char) : List Segment :=
  (path.splitOn '/').foldl enter directory

/-- `isAbsolute(path)`. -/
def isAbsolute (path : String) : Bool := path.toList.head? == some '/'

theorem isName_of_mem_enter {directory : List Segment} {segment : Segment}
    (hdirectory : ∀ name ∈ directory, Segment.IsName name) (hslash : '/' ∉ segment) :
    ∀ name ∈ enter directory segment, Segment.IsName name := by
  intro name hname
  unfold enter at hname
  split at hname
  · exact hdirectory name hname
  · rename_i hplain
    split at hname
    · exact hdirectory name (List.mem_of_mem_tail hname)
    · rename_i hparent
      rcases List.mem_cons.mp hname with rfl | hold
      · exact ⟨fun h ↦ hplain (Or.inl h), fun h ↦ hplain (Or.inr h), hparent, hslash⟩
      · exact hdirectory name hold

theorem isName_of_mem_walk {directory : List Segment} (path : List Char)
    (hdirectory : ∀ name ∈ directory, Segment.IsName name) :
    ∀ name ∈ walk directory path, Segment.IsName name := by
  have hsteps (segments : List Segment) (hsegments : ∀ segment ∈ segments, '/' ∉ segment)
      (directory : List Segment) (hdirectory : ∀ name ∈ directory, Segment.IsName name) :
      ∀ name ∈ segments.foldl enter directory, Segment.IsName name := by
    induction segments generalizing directory with
    | nil => exact hdirectory
    | cons segment segments ih =>
      apply ih (fun other hother ↦ hsegments other (List.mem_cons_of_mem segment hother))
      exact isName_of_mem_enter hdirectory (hsegments segment List.mem_cons_self)
  exact hsteps (path.splitOn '/') (fun _ hsegment ↦ Collections.not_mem_of_mem_splitOn hsegment)
    directory
    hdirectory

/-- `resolve(base, path)`. -/
def resolve (base : AbsolutePath) (path : String) : AbsolutePath where
  segments := (walk (if isAbsolute path then [] else base.segments.reverse) path.toList).reverse
  names segment hsegment := by
    apply isName_of_mem_walk path.toList _ segment (List.mem_reverse.mp hsegment)
    intro name hname
    split at hname
    · cases hname
    · exact base.names name (List.mem_reverse.mp hname)

/-- An absolute path text means the same from every directory. -/
theorem resolve_eq_of_isAbsolute {path : String} (habsolute : isAbsolute path = true)
    (base other : AbsolutePath) : resolve base path = resolve other path := by
  apply AbsolutePath.ext
  simp only [resolve, habsolute, if_true]

/-- The normal text of an absolute path. -/
def AbsolutePath.render (path : AbsolutePath) : String :=
  String.ofList ('/' :: ['/'].intercalate path.segments)

theorem isAbsolute_render (path : AbsolutePath) : isAbsolute path.render = true := by
  simp [isAbsolute, AbsolutePath.render]

theorem foldl_enter_names (names directory : List Segment)
    (hnames : ∀ name ∈ names, Segment.IsName name) :
    names.foldl enter directory = names.reverse ++ directory := by
  induction names generalizing directory with
  | nil => rfl
  | cons name names ih =>
    have hname : Segment.IsName name := hnames name List.mem_cons_self
    have henter : enter directory name = name :: directory := by
      rw [enter, if_neg (not_or.mpr ⟨hname.1, hname.2.1⟩), if_neg hname.2.2.1]
    rw [List.foldl_cons, henter, ih _ fun other hother ↦
      hnames other (List.mem_cons_of_mem name hother), List.reverse_cons, List.append_assoc,
      List.singleton_append]

/-- The normal text of a path denotes it from every directory, so distinct paths have distinct
texts. -/
theorem resolve_render (base path : AbsolutePath) : resolve base path.render = path := by
  apply AbsolutePath.ext
  simp only [resolve, isAbsolute_render, if_true, walk]
  have hsplit : path.render.toList.splitOn '/' =
      [] :: (['/'].intercalate path.segments).splitOn '/' := by
    rw [AbsolutePath.render, String.toList_ofList, List.splitOn_cons_eq_if_modifyHead]
    rfl
  rw [hsplit, List.foldl_cons]
  by_cases hroot : path.segments = []
  · rw [hroot]
    rfl
  · rw [List.splitOn_intercalate '/' (fun segment hsegment ↦
      (path.names segment hsegment).2.2.2) hroot, foldl_enter_names _ _ path.names]
    have hstart : enter [] [] = [] := rfl
    rw [hstart, List.append_nil, List.reverse_reverse]

end Flockctl.Paths

/-!
# Joining paths

Joining path texts puts them behind each other and normalises the result: empty segments and `.`
go, and a `..` takes the name before it away. What is left is a run of names behind the `..` that
lead out of a relative path; an absolute path has none of these. Joining two names and then two
`..` to a path gives the path's own normal form back.
-/

namespace Flockctl.Paths

/-- A normalised path: the names innermost first, behind `ups` times `..`. -/
structure NormalPath where
  absolute : Bool
  ups : ℕ
  names : List Segment
  ups_eq_zero : absolute = true → ups = 0
deriving DecidableEq

namespace NormalPath

/-- One more segment at the end of a path. -/
def append (path : NormalPath) (segment : Segment) : NormalPath :=
  if segment = [] ∨ segment = ['.'] then path
  else if segment = ['.', '.'] then
    match path.names with
    | _ :: outer => { path with names := outer }
    | [] =>
        if habsolute : path.absolute = true then path
        else { path with
          ups := path.ups + 1
          ups_eq_zero := fun h ↦ absurd h habsolute }
  else { path with names := segment :: path.names }

/-- `normalize(text)`. -/
def ofText (text : List Char) : NormalPath :=
  (text.splitOn '/').foldl append ⟨text.head? == some '/', 0, [], fun _ ↦ rfl⟩

/-- `join(path, ...segments)`. -/
def join (path : NormalPath) (segments : List Segment) : NormalPath :=
  segments.foldl append path

theorem append_of_isName (path : NormalPath) {segment : Segment} (hname : segment.IsName) :
    path.append segment = { path with names := segment :: path.names } := by
  obtain ⟨hempty, hdot, hdots, -⟩ := hname
  rw [append, if_neg (not_or.mpr ⟨hempty, hdot⟩), if_neg hdots]

/-- Going into a directory and out again leads back. -/
theorem append_parent (path : NormalPath) {segment : Segment} (hname : segment.IsName) :
    (path.append segment).append ['.', '.'] = path := by
  rw [append_of_isName path hname]
  rfl

/-- The same two levels deep. -/
theorem join_parent_parent (path : NormalPath) {outer inner : Segment} (houter : outer.IsName)
    (hinner : inner.IsName) : (path.join [outer, inner]).join [['.', '.'], ['.', '.']] = path := by
  calc
    (path.join [outer, inner]).join [['.', '.'], ['.', '.']]
        = (((path.append outer).append inner).append ['.', '.']).append ['.', '.'] := rfl
    _ = (path.append outer).append ['.', '.'] := by rw [append_parent _ hinner]
    _ = path := append_parent path houter

end NormalPath

end Flockctl.Paths
