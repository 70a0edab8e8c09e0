import Flockctl.FsOperations.IndexWalk
import Mathlib.Data.List.Perm.Subperm

/-!
# What the index contains

The index has every regular file that is not ignored and lies below no ignored directory, each once
and up to a cap, where all the directories above the file can be read. The listing of directories
shows the same files to a reader who goes through it from the root, except that it shows the first
entries of a large directory only.
-/

namespace Flockctl.FsOperations

open Collections Encoding Files Graph Paths

section Spec

variable (host : Host) (tree : FileTree) (root : Location FileName)

/-- A regular file. -/
def IsRegular (place : Place) : Prop := ∃ content, tree.node (place ++ root) = some (.file content)

/-- A regular file that is not ignored and lies below no ignored directory. -/
structure IsVisible (ignores : List Char → Bool) (place : Place) : Prop where
  regular : IsRegular tree root place
  opened : ∀ above, above <:+ place.tail → above ≠ [] → ignores (textOf above ++ ['/']) = false
  kept : ignores (textOf place) = false

/-- All the directories above the place can be read. -/
def IsReadable (place : Place) : Prop :=
  ∀ above, above <:+ place.tail → host.mayList (above ++ root) = true

/-- A complete answer where these are the files to be found. -/
structure IsIndexOf (Expected : Place → Prop) (paths : List (List Char)) (truncated : Bool) :
    Prop where
  nodup : paths.Nodup
  complete : ∃ files : List Place, files.Nodup ∧ (∀ place, place ∈ files ↔ Expected place) ∧
    (files.length ≤ INDEX_PATH_CAP → paths.Perm (files.map textOf) ∧ truncated = false) ∧
      (INDEX_PATH_CAP < files.length →
        paths.length = INDEX_PATH_CAP ∧ paths ⊆ files.map textOf ∧ truncated = true)

/-- An answer that is complete, and of which the flag is right unless the number of the files is
the cap. -/
structure IsIndexUpToCap (Expected : Place → Prop) (paths : List (List Char)) (truncated : Bool) :
    Prop where
  nodup : paths.Nodup
  complete : ∃ files : List Place, files.Nodup ∧ (∀ place, place ∈ files ↔ Expected place) ∧
    (files.length ≤ INDEX_PATH_CAP → paths.Perm (files.map textOf)) ∧
      (files.length < INDEX_PATH_CAP → truncated = false) ∧
        (INDEX_PATH_CAP < files.length →
          paths.length = INDEX_PATH_CAP ∧ paths ⊆ files.map textOf ∧ truncated = true)

end Spec

/-! ## The files of the walk -/

section Files

variable (host : Host) (tree : FileTree) (root : Location FileName) (ignores : List Char → Bool)

/-- The files that the walk takes in a directory. -/
def filesOf (dir : Place) : List Place :=
  (((entriesOf host tree root dir).filter fun d ↦ (stopAt ignores dir d).isSome).map
    Dirent.name).map (· :: dir)

variable {tree}

/-- All the files that a walk without a cap takes. -/
def indexedFiles {depth : ℕ} (hdepth : HasDepth tree depth) : List Place :=
  ((indexForest host root ignores hdepth).preorder []).flatMap (filesOf host tree root ignores)

variable {host root}

theorem reduceOption_stopsOf (dir : Place) :
    (stopsOf host tree root ignores dir).reduceOption =
      (filesOf host tree root ignores dir).map textOf := by
  rw [stopsOf, List.reduceOption_cons_of_none, filesOf, List.map_map, List.map_map]
  induction entriesOf host tree root dir with
  | nil => rfl
  | cons d entries ih =>
    by_cases htaken : (!d.isDirectory && d.isFile && !ignores (textOf (d.name :: dir))) = true
    · have hstop : stopAt ignores dir d = some (textOf (d.name :: dir)) := if_pos htaken
      rw [List.map_cons, hstop, List.reduceOption_cons_of_some, ih,
        List.filter_cons_of_pos (by rw [hstop]; rfl), List.map_cons]
      rfl
    · have hstop : stopAt ignores dir d = none := if_neg htaken
      rw [List.map_cons, hstop, List.reduceOption_cons_of_none, ih,
        List.filter_cons_of_neg (by rw [hstop]; decide)]

theorem reduceOption_stops (dirs : List Place) :
    (dirs.flatMap (stopsOf host tree root ignores)).reduceOption =
      (dirs.flatMap (filesOf host tree root ignores)).map textOf := by
  induction dirs with
  | nil => rfl
  | cons dir dirs ih =>
    rw [List.flatMap_cons, List.reduceOption_append, ih, reduceOption_stopsOf, List.flatMap_cons,
      List.map_append]

theorem mem_filesOf {dir place : Place} :
    place ∈ filesOf host tree root ignores dir ↔
      ∃ name, place = name :: dir ∧ host.mayList (dir ++ root) = true ∧
        IsRegular tree root place ∧ ignores (textOf place) = false := by
  simp only [filesOf, List.mem_map, List.mem_filter]
  constructor
  · rintro ⟨name, ⟨d, ⟨hd, htaken⟩, rfl⟩, rfl⟩
    obtain ⟨hmay, -, heq⟩ := mem_entriesOf.mp hd
    by_cases hcondition : (!d.isDirectory && d.isFile && !ignores (textOf (d.name :: dir))) = true
    · simp only [Bool.and_eq_true, Bool.not_eq_true'] at hcondition
      refine ⟨d.name, rfl, hmay, ?_, hcondition.2⟩
      have hfile := hcondition.1.2
      rw [heq] at hfile
      simp only [direntOf] at hfile
      split at hfile
      · rename_i content hnode
        exact ⟨content, hnode⟩
      · cases hfile
    · rw [stopAt, if_neg hcondition] at htaken
      cases htaken
  · rintro ⟨name, rfl, hmay, ⟨content, hnode⟩, hignored⟩
    have hnode : tree.node (name :: (dir ++ root)) = some (.file content) := hnode
    refine ⟨name, ⟨direntOf tree (dir ++ root) name, ⟨?_, ?_⟩, rfl⟩, rfl⟩
    · exact mem_entriesOf.mpr ⟨hmay, by simp [direntOf, hnode], rfl⟩
    · simp [stopAt, direntOf, hnode, hignored, Node.isDir]

theorem mem_indexedFiles {depth : ℕ} (hdepth : HasDepth tree depth)
    (hdir : tree.node root = some .dir) {place : Place} :
    place ∈ indexedFiles host root ignores hdepth ↔
      IsVisible tree root ignores place ∧ IsReadable host root place := by
  rw [indexedFiles, List.mem_flatMap]
  constructor
  · rintro ⟨dir, hmem, hplace⟩
    obtain ⟨name, rfl, hmay, hregular, hkept⟩ := (mem_filesOf ignores).mp hplace
    obtain ⟨-, hopen, hread⟩ := (mem_preorder_iff ignores hdepth hdir).mp hmem
    refine ⟨⟨hregular, hopen, hkept⟩, fun above habove ↦ ?_⟩
    cases dir with
    | nil =>
      rw [List.suffix_nil.mp habove]
      exact hmay
    | cons outer dir =>
      rcases List.suffix_cons_iff.mp habove with rfl | hup
      · exact hmay
      · exact hread above hup (List.cons_ne_nil outer dir)
  · rintro ⟨⟨hregular, hopen, hkept⟩, hread⟩
    cases place with
    | nil =>
      obtain ⟨content, hnode⟩ := hregular
      rw [List.nil_append, hdir] at hnode
      cases hnode
    | cons name dir =>
      refine ⟨dir, ?_, (mem_filesOf ignores).mpr
        ⟨name, rfl, hread dir List.suffix_rfl, hregular, hkept⟩⟩
      rw [mem_preorder_iff ignores hdepth hdir]
      refine ⟨?_, hopen, fun above habove _ ↦ hread above (habove.trans (List.tail_suffix dir))⟩
      obtain ⟨content, hnode⟩ := hregular
      exact tree.parents name _ fun hnone ↦ Option.some_ne_none _ (hnode.symm.trans hnone)

theorem nodup_indexedFiles {depth : ℕ} (hdepth : HasDepth tree depth) :
    (indexedFiles host root ignores hdepth).Nodup := by
  rw [indexedFiles, List.nodup_flatMap]
  constructor
  · intro dir _
    apply List.Nodup.map (fun name other h ↦ (List.cons_eq_cons.mp h).1)
    exact (nodup_entriesOf dir).sublist (List.filter_sublist.map Dirent.name)
  · apply (nodup_preorder_index ignores hdepth []).imp
    intro dir other hne place hplace hother
    obtain ⟨name, rfl, -⟩ := (mem_filesOf ignores).mp hplace
    obtain ⟨again, heq, -⟩ := (mem_filesOf ignores).mp hother
    exact hne (List.cons_eq_cons.mp heq).2

/-- The walk of the index, with room for all of its directories. -/
theorem indexFrom_root {base : AbsolutePath} {depth : ℕ} (hdepth : HasDepth tree depth)
    (hroot : tree.stat host.links (steps base) = .ok root) (hdir : tree.node root = some .dir) :
    ∃ paths truncated,
      (∀ visits, ((indexForest host root ignores hdepth).preorder []).length ≤ visits →
        indexFrom host tree ignores base visits ([[]], [], false) = (paths, truncated)) ∧
          IsIndexUpToCap (fun place ↦ IsVisible tree root ignores place ∧
            IsReadable host root place) paths truncated := by
  have hdirs : ∀ dir ∈ [([] : Place)], tree.node (dir ++ root) = some .dir := by
    intro dir hmem
    rw [List.mem_singleton.mp hmem]
    exact hdir
  have hwalk (visits : ℕ)
      (hvisits : ([([] : Place)].flatMap (indexForest host root ignores hdepth).preorder).length ≤
        visits) := indexFrom_eq ignores hdepth hroot hdirs hvisits []
  simp only [List.flatMap_singleton] at hwalk
  have hfiles : (((indexForest host root ignores hdepth).preorder []).flatMap
      (stopsOf host tree root ignores)).reduceOption =
        (indexedFiles host root ignores hdepth).map textOf := reduceOption_stops ignores _
  refine ⟨_, _, hwalk, ?_⟩
  generalize ((indexForest host root ignores hdepth).preorder []).flatMap
    (stopsOf host tree root ignores) = stops at hfiles ⊢
  have hnodup : (indexedFiles host root ignores hdepth).Nodup := nodup_indexedFiles ignores hdepth
  have htexts : (indexedFiles host root ignores hdepth).map textOf |>.Nodup :=
    hnodup.map textOf_injective
  have hpaths : (collect INDEX_PATH_CAP stops []).1 =
      ((indexedFiles host root ignores hdepth).map textOf).take INDEX_PATH_CAP := by
    rw [collect_fst (Nat.zero_le _), List.nil_append, hfiles]
  constructor
  · rw [hpaths]
    exact htexts.sublist (List.take_sublist _ _)
  · refine ⟨indexedFiles host root ignores hdepth, hnodup,
      fun place ↦ mem_indexedFiles ignores hdepth hdir, fun hfew ↦ ?_, fun hfewer ↦ ?_,
      fun hmany ↦ ⟨?_, ?_, ?_⟩⟩
    · rw [hpaths, List.take_of_length_le (by rwa [List.length_map])]
    · apply collect_snd_of_lt
      rwa [List.nil_append, hfiles, List.length_map]
    · rw [hpaths, List.length_take, List.length_map]
      exact Nat.min_eq_left hmany.le
    · rw [hpaths]
      exact List.take_subset _ _
    · apply collect_snd_of_gt (Nat.zero_le _)
      rwa [List.nil_append, hfiles, List.length_map]

end Files

/-! ## The listing -/

section Listing

variable (host : Host) (ignores : Ignores) (tree : FileTree) (projectRoot : String)
  (root : Location FileName)

/-- The path that the listing of a directory names. -/
def shownPath (dir : Place) : List Char := if dir = [] then ['.'] else textOf dir

/-- The listing of a directory has an entry that is not ignored. An answer that names the path of
another directory does not count. -/
def Shows (dir : Place) (name : FileName) : Prop :=
  ∃ listing entry,
    listProjectDir host ignores tree projectRoot (String.ofList (textOf dir)) = .ok listing ∧
      listing.path = shownPath dir ∧ entry ∈ listing.entries ∧ entry.name = name.text ∧
        entry.ignored = false

/-- The directories that a reader of the listings comes to. -/
inductive IsWalkedTo : Place → Prop
  | start : IsWalkedTo []
  | down {name : FileName} {dir : Place} (hdir : IsWalkedTo dir)
      (hshows : Shows host ignores tree projectRoot dir name)
      (hnode : tree.node (name :: (dir ++ root)) = some .dir) : IsWalkedTo (name :: dir)

/-- The reader comes to a directory that shows the entry. -/
def IsReached (place : Place) : Prop :=
  ∃ name dir, place = name :: dir ∧ IsWalkedTo host ignores tree projectRoot root dir ∧
    Shows host ignores tree projectRoot dir name

/-- The entry is among those that a listing of its directory has room for. -/
def HasRoom (dir : Place) (name : FileName) : Prop :=
  name ∈ ((entriesOf host tree root dir).take LIST_ENTRY_CAP).map Dirent.name

variable {host ignores tree projectRoot root}

theorem textOf_ne_dot {dir : Place} (h : dir ≠ []) : textOf dir ≠ ['.'] := by
  apply intercalate_ne_dot fun _ ↦ isName_of_mem_place
  rwa [ne_eq, List.map_eq_nil_iff, List.reverse_eq_nil_iff]

theorem entryPath_shownPath (dir : Place) (name : FileName) :
    entryPath (shownPath dir) name.text = textOf (name :: dir) := by
  by_cases hroot : dir = []
  · rw [hroot, shownPath, if_pos rfl, entryPath, if_pos rfl, textOf_cons, if_pos textOf_nil]
  · rw [shownPath, if_neg hroot, entryPath, if_neg (textOf_ne_dot hroot), textOf_cons,
      if_neg (mt (textOf_eq_nil_iff dir).mp hroot)]

/-- A relative path names one place. -/
theorem names_of_shownPath {rest : List Segment} {dir : Place}
    (hnames : ∀ name ∈ rest, Segment.IsName name)
    (h : (if rest = [] then ['.'] else ['/'].intercalate rest) = shownPath dir) :
    rest = dir.reverse.map FileName.text := by
  rw [shownPath] at h
  split at h
  · rename_i hrest
    split at h
    · rename_i hdir
      rw [hrest, hdir]
      rfl
    · rename_i hdir
      exact absurd h.symm (textOf_ne_dot hdir)
  · rename_i hrest
    split at h
    · exact absurd h (intercalate_ne_dot hnames hrest)
    · exact intercalate_names_injective hnames (fun _ ↦ isName_of_mem_place) h

theorem steps_entry {base path : AbsolutePath} {dir : Place} (name : FileName)
    (h : path.segments = base.segments ++ dir.reverse.map FileName.text) :
    steps path ++ [.child name] = steps base ++ Tree.pathTo (name :: dir) := by
  rw [steps_of_segments h, Tree.pathTo_cons, List.append_assoc]

/-- An entry is looked up in the rules as what it is, a directory or a file. -/
theorem ignored_listEntry {base : AbsolutePath}
    (hroot : tree.stat host.links (steps base) = .ok root) {safe : SafePath} {dir : Place}
    {name : FileName} (hstands : tree.Stands (name :: (dir ++ root)))
    (hsegments : safe.absolute.segments = base.segments ++ dir.reverse.map FileName.text)
    (hrelative : safe.relative = shownPath dir) (matcher : List Char → Bool) :
    (listEntry host tree matcher safe (direntOf tree (dir ++ root) name)).ignored =
      matcher (if tree.node (name :: (dir ++ root)) = some .dir then textOf (name :: dir) ++ ['/']
        else textOf (name :: dir)) := by
  have hpath : entryPath safe.relative (direntOf tree (dir ++ root) name).name.text =
      textOf (name :: dir) := by
    rw [hrelative]
    exact entryPath_shownPath dir name
  have hstat : tree.stat host.links
      (steps safe.absolute ++ [.child (direntOf tree (dir ++ root) name).name]) =
        .ok (name :: (dir ++ root)) := by
    have hsteps := steps_entry name hsegments
    exact (congrArg (tree.stat host.links) hsteps).trans (stat_place hroot hstands)
  rcases hstands with hdir | ⟨content, hfile⟩
  · rw [if_pos hdir]
    simp only [listEntry, hpath, classify, hstat, hdir, if_true]
  · have hnotdir : tree.node (name :: (dir ++ root)) ≠ some .dir := by
      rw [hfile]
      exact fun h ↦ by cases h
    rw [if_neg hnotdir]
    simp only [listEntry, hpath, classify, hstat, hfile, reduceCtorEq, if_false]

/-- What a listing of a directory says of its entries. -/
theorem Shows.entry
    (hroot : tree.stat host.links (steps (host.absoluteRoot projectRoot)) = .ok root)
    {dir : Place} (hdir : tree.node (dir ++ root) = some .dir) {name : FileName}
    (h : Shows host ignores tree projectRoot dir name) :
    host.mayList (dir ++ root) = true ∧ HasRoom host tree root dir name ∧
      (tree.Stands (name :: (dir ++ root)) →
        ignores tree (host.absoluteRoot projectRoot)
          (if tree.node (name :: (dir ++ root)) = some .dir then textOf (name :: dir) ++ ['/']
            else textOf (name :: dir)) = false) := by
  obtain ⟨listing, entry, hlisting, hpath, hentry, hname, hignored⟩ := h
  obtain ⟨safe, hsafe, hlist⟩ := bind_eq_ok_iff.mp hlisting
  obtain ⟨-, -, rest, hsegments, hnames, hrelative⟩ := resolveSafePath_eq_ok hsafe
  split at hlist
  · cases hlist
  split at hlist
  case isFalse => cases hlist
  split at hlist
  · cases hlist
  rename_i found hfound
  cases hlist
  have hrest : rest = dir.reverse.map FileName.text :=
    names_of_shownPath hnames (hrelative.symm.trans hpath)
  rw [hrest] at hsegments
  rw [steps_of_segments hsegments, dirents_place hroot hdir] at hfound
  by_cases hmay : host.mayList (dir ++ root) = true
  · rw [if_pos hmay] at hfound
    cases hfound
    have hentries : entriesOf host tree root dir = _ := if_pos hmay
    dsimp only at hentry
    rw [← hentries] at hentry
    obtain ⟨d, hd, rfl⟩ := List.mem_map.mp hentry
    have hsame : d.name = name := text_injective hname
    have hdirent := (mem_entriesOf.mp (List.mem_of_mem_take hd)).2.2
    refine ⟨hmay, List.mem_map.mpr ⟨d, hd, hsame⟩, fun hstands ↦ ?_⟩
    rw [hsame] at hdirent
    rw [hdirent, ignored_listEntry hroot hstands hsegments hpath] at hignored
    exact hignored
  · rw [if_neg hmay] at hfound
    cases hfound

theorem segments_resolve_dot (base : AbsolutePath) :
    (resolve base ".").segments = base.segments := by
  have habsolute : isAbsolute "." = false := by decide
  have hdot : ("." : String).toList.splitOn '/' = [['.']] := by decide
  have henter : enter base.segments.reverse ['.'] = base.segments.reverse := if_pos (Or.inr rfl)
  simp only [resolve, habsolute, walk, hdot, List.foldl_cons, List.foldl_nil, if_false, henter,
    List.reverse_reverse, Bool.false_eq_true]

/-- A place below the root, as the text of a request. -/
theorem candidateOf_textOf {dir : Place} (htrimmed : IsTrimmed (textOf dir)) :
    candidateOf (String.ofList (textOf dir)) =
      if dir = [] then "." else String.ofList (textOf dir) := by
  rw [candidateOf, String.toList_ofList, (trim_eq_self_iff _).mpr htrimmed]
  by_cases hroot : dir = []
  · rw [hroot, if_pos textOf_nil, if_pos rfl]
  · rw [if_neg (mt (textOf_eq_nil_iff dir).mp hroot), if_neg hroot]

theorem nul_not_mem_textOf (dir : Place) : '\x00' ∉ textOf dir := by
  refine not_mem_intercalate (by decide) fun segment hsegment ↦ ?_
  obtain ⟨name, -, rfl⟩ := List.mem_map.mp hsegment
  exact name.noNul

/-- The texts of places are accepted as they are, white space at their ends apart. -/
theorem resolveSafePath_textOf (hproject : projectRoot ≠ "")
    (hbase : (host.absoluteRoot projectRoot).segments ≠ []) {dir : Place}
    (htrimmed : IsTrimmed (textOf dir)) :
    ∃ safe, resolveSafePath host projectRoot (String.ofList (textOf dir)) = .ok safe ∧
      safe.absolute.segments = (host.absoluteRoot projectRoot).segments ++
        dir.reverse.map FileName.text ∧ safe.relative = shownPath dir := by
  have hcandidate := candidateOf_textOf htrimmed
  generalize hrequest : candidateOf (String.ofList (textOf dir)) = candidate at hcandidate
  obtain ⟨habsolute, hnul, hsegments⟩ : isAbsolute candidate = false ∧ '\x00' ∉ candidate.toList ∧
      (resolve (host.absoluteRoot projectRoot) candidate).segments =
        (host.absoluteRoot projectRoot).segments ++ dir.reverse.map FileName.text := by
    rw [hcandidate]
    split
    · rename_i hroot
      rw [hroot]
      refine ⟨by decide, by decide, ?_⟩
      rw [segments_resolve_dot]
      exact (List.append_nil _).symm
    · refine ⟨isAbsolute_textOf dir, ?_, segments_resolve_textOf _ dir⟩
      rw [String.toList_ofList]
      exact nul_not_mem_textOf dir
  have hwithin : isWithin (host.absoluteRoot projectRoot)
      (resolve (host.absoluteRoot projectRoot) candidate) = true := by
    rw [isWithin_iff, hsegments]
    exact Or.inr ⟨hbase, List.prefix_append _ _⟩
  refine ⟨.of (host.absoluteRoot projectRoot) (resolve (host.absoluteRoot projectRoot) candidate),
    ?_, hsegments, ?_⟩
  · rw [resolveSafePath, hrequest, if_neg hproject, if_neg (Bool.eq_false_iff.mp habsolute),
      if_neg hnul, if_pos hwithin]
  · have hrelative : Paths.relative (host.absoluteRoot projectRoot)
        (resolve (host.absoluteRoot projectRoot) candidate) = textOf dir := relative_eq hsegments
    simp only [SafePath.of, hrelative, textOf_eq_nil_iff, shownPath]

variable (ignores) in
/-- The listing of a directory that can be read. -/
theorem listProjectDir_place
    (hroot : tree.stat host.links (steps (host.absoluteRoot projectRoot)) = .ok root)
    {dir : Place} (hdir : tree.node (dir ++ root) = some .dir)
    (hmay : host.mayList (dir ++ root) = true) {relPath : String} {safe : SafePath}
    (hsafe : resolveSafePath host projectRoot relPath = .ok safe)
    (hsegments : safe.absolute.segments = (host.absoluteRoot projectRoot).segments ++
      dir.reverse.map FileName.text) :
    listProjectDir host ignores tree projectRoot relPath = .ok
      { path := safe.relative
        entries := ((entriesOf host tree root dir).take LIST_ENTRY_CAP).map
          (listEntry host tree (ignores tree (host.absoluteRoot projectRoot)) safe)
        truncated := decide (LIST_ENTRY_CAP < (entriesOf host tree root dir).length) } := by
  have hsteps := steps_of_segments hsegments
  have hstat : tree.stat host.links (steps safe.absolute) = .ok (dir ++ root) := by
    rw [hsteps]
    exact stat_place hroot (Or.inl hdir)
  have hfound := dirents_place hroot hdir
  rw [if_pos hmay, ← hsteps] at hfound
  have hentries : entriesOf host tree root dir = _ := if_pos hmay
  rw [listProjectDir, hsafe, hentries]
  simp only [bind, Except.bind, hstat, hfound]
  rw [if_pos hdir]

/-- What is in a directory and not ignored is in its listing, as far as the listing has room. -/
theorem Shows.of_entry (hproject : projectRoot ≠ "")
    (hbase : (host.absoluteRoot projectRoot).segments ≠ [])
    (hroot : tree.stat host.links (steps (host.absoluteRoot projectRoot)) = .ok root)
    {dir : Place} (htrimmed : IsTrimmed (textOf dir)) (hdir : tree.node (dir ++ root) = some .dir)
    {name : FileName} (hmay : host.mayList (dir ++ root) = true)
    (hroom : HasRoom host tree root dir name) (hstands : tree.Stands (name :: (dir ++ root)))
    (hkept : ignores tree (host.absoluteRoot projectRoot)
      (if tree.node (name :: (dir ++ root)) = some .dir then textOf (name :: dir) ++ ['/']
        else textOf (name :: dir)) = false) :
    Shows host ignores tree projectRoot dir name := by
  obtain ⟨safe, hsafe, hsegments, hrelative⟩ := resolveSafePath_textOf hproject hbase htrimmed
  have hlisting := listProjectDir_place ignores hroot hdir hmay hsafe hsegments
  obtain ⟨d, hd, rfl⟩ := List.mem_map.mp hroom
  have hdirent := (mem_entriesOf.mp (List.mem_of_mem_take hd)).2.2
  refine ⟨_, listEntry host tree (ignores tree (host.absoluteRoot projectRoot)) safe d, hlisting,
    hrelative, List.mem_map.mpr ⟨d, hd, rfl⟩, rfl, ?_⟩
  rw [hdirent]
  exact (ignored_listEntry hroot hstands hsegments hrelative _).trans hkept

theorem eq_or_cons_suffix {above dir : Place} (h : above <:+ dir) :
    above = dir ∨ ∃ name, name :: above <:+ dir := by
  obtain ⟨front, rfl⟩ := h
  cases front using List.reverseRecOn with
  | nil => exact Or.inl rfl
  | append_singleton front name =>
    right
    exact ⟨name, front, by rw [List.append_assoc, List.singleton_append]⟩

theorem stands_of_walked {dir : Place} (hdir : tree.node root = some .dir)
    (h : IsWalkedTo host ignores tree projectRoot root dir) :
    tree.node (dir ++ root) = some .dir := by
  cases h with
  | start => exact hdir
  | down _ _ hnode => exact hnode

/-- The reader comes through directories that can be read and are not ignored. -/
theorem opened_of_walked
    (hroot : tree.stat host.links (steps (host.absoluteRoot projectRoot)) = .ok root)
    (hdir : tree.node root = some .dir) {dir : Place}
    (h : IsWalkedTo host ignores tree projectRoot root dir) :
    (∀ above, above <:+ dir → above ≠ [] →
      ignores tree (host.absoluteRoot projectRoot) (textOf above ++ ['/']) = false) ∧
        ∀ name above, name :: above <:+ dir → host.mayList (above ++ root) = true ∧
          HasRoom host tree root above name := by
  induction h with
  | start =>
    refine ⟨fun above habove hne ↦ absurd (List.suffix_nil.mp habove) hne, ?_⟩
    intro name above habove
    exact absurd (List.suffix_nil.mp habove) (List.cons_ne_nil name above)
  | @down name dir hwalked hshows hnode ih =>
    obtain ⟨hmay, hroom, hignored⟩ := hshows.entry hroot (stands_of_walked hdir hwalked)
    have hname := hignored (Or.inl hnode)
    rw [if_pos hnode] at hname
    constructor
    · intro above habove hne
      rcases List.suffix_cons_iff.mp habove with rfl | hup
      · exact hname
      · exact ih.1 above hup hne
    · intro other above habove
      rcases List.suffix_cons_iff.mp habove with heq | hup
      · obtain ⟨rfl, rfl⟩ := List.cons_eq_cons.mp heq
        exact ⟨hmay, hroom⟩
      · exact ih.2 other above hup

/-- What the reader comes to is in the index, and each listing has had room for it. -/
theorem visible_of_reached
    (hroot : tree.stat host.links (steps (host.absoluteRoot projectRoot)) = .ok root)
    (hdir : tree.node root = some .dir) {place : Place} (hregular : IsRegular tree root place)
    (h : IsReached host ignores tree projectRoot root place) :
    IsVisible tree root (ignores tree (host.absoluteRoot projectRoot)) place ∧
      IsReadable host root place ∧
        ∀ name above, name :: above <:+ place → HasRoom host tree root above name := by
  obtain ⟨name, dir, rfl, hwalked, hshows⟩ := h
  obtain ⟨hopen, hread⟩ := opened_of_walked hroot hdir hwalked
  obtain ⟨hmay, hroom, hignored⟩ := hshows.entry hroot (stands_of_walked hdir hwalked)
  obtain ⟨content, hnode⟩ := hregular
  have hfile : tree.node (name :: (dir ++ root)) = some (.file content) := hnode
  have hnotdir : tree.node (name :: (dir ++ root)) ≠ some .dir := by
    rw [hfile]
    exact fun h ↦ by cases h
  have hkept := hignored (Or.inr ⟨content, hfile⟩)
  rw [if_neg hnotdir] at hkept
  refine ⟨⟨⟨content, hnode⟩, hopen, hkept⟩, fun above habove ↦ ?_, fun other above habove ↦ ?_⟩
  · rcases eq_or_cons_suffix habove with rfl | ⟨other, hup⟩
    · exact hmay
    · exact (hread other above hup).1
  · rcases List.suffix_cons_iff.mp habove with heq | hup
    · obtain ⟨rfl, rfl⟩ := List.cons_eq_cons.mp heq
      exact hroom
    · exact (hread other above hup).2

theorem walkedTo_of_opened (hproject : projectRoot ≠ "")
    (hbase : (host.absoluteRoot projectRoot).segments ≠ [])
    (hroot : tree.stat host.links (steps (host.absoluteRoot projectRoot)) = .ok root)
    {dir : Place} (hdir : tree.node (dir ++ root) = some .dir)
    (hopen : ∀ above, above <:+ dir → above ≠ [] →
      ignores tree (host.absoluteRoot projectRoot) (textOf above ++ ['/']) = false)
    (hread : ∀ above, above <:+ dir → host.mayList (above ++ root) = true)
    (htrimmed : ∀ above, above <:+ dir → IsTrimmed (textOf above))
    (hrooms : ∀ name above, name :: above <:+ dir → HasRoom host tree root above name) :
    IsWalkedTo host ignores tree projectRoot root dir := by
  induction dir with
  | nil => exact .start
  | cons name dir ih =>
    have hup {above : Place} (h : above <:+ dir) : above <:+ name :: dir :=
      h.trans (List.suffix_cons name dir)
    have hparent : tree.node (dir ++ root) = some .dir :=
      tree.parents name _ fun hnone ↦ Option.some_ne_none _ (hdir.symm.trans hnone)
    have hwalked : IsWalkedTo host ignores tree projectRoot root dir :=
      ih hparent (fun above habove ↦ hopen above (hup habove))
        (fun above habove ↦ hread above (hup habove))
        (fun above habove ↦ htrimmed above (hup habove))
        fun other above habove ↦ hrooms other above (hup habove)
    have hname : tree.node (name :: (dir ++ root)) = some .dir := hdir
    refine .down hwalked ?_ hname
    apply Shows.of_entry hproject hbase hroot (htrimmed dir (hup List.suffix_rfl)) hparent
      (hread dir (hup List.suffix_rfl)) (hrooms name dir List.suffix_rfl) (Or.inl hname)
    rw [if_pos hname]
    exact hopen _ List.suffix_rfl (List.cons_ne_nil name dir)

/-- The reader comes to every file of the index, where the listings have room. -/
theorem reached_of_visible (hproject : projectRoot ≠ "")
    (hbase : (host.absoluteRoot projectRoot).segments ≠ [])
    (hroot : tree.stat host.links (steps (host.absoluteRoot projectRoot)) = .ok root)
    {place : Place} (hplace : place ≠ [])
    (hvisible : IsVisible tree root (ignores tree (host.absoluteRoot projectRoot)) place)
    (hread : IsReadable host root place)
    (htrimmed : ∀ above, above <:+ place.tail → IsTrimmed (textOf above))
    (hrooms : ∀ name above, name :: above <:+ place → HasRoom host tree root above name) :
    IsReached host ignores tree projectRoot root place := by
  obtain ⟨name, dir, rfl⟩ := List.exists_cons_of_ne_nil hplace
  obtain ⟨⟨content, hnode⟩, hopen, hkept⟩ := hvisible
  have hfile : tree.node (name :: (dir ++ root)) = some (.file content) := hnode
  have hdir : tree.node (dir ++ root) = some .dir :=
    tree.parents name _ (by rw [hfile]; exact Option.some_ne_none _)
  have hnotdir : tree.node (name :: (dir ++ root)) ≠ some .dir := by
    rw [hfile]
    exact fun h ↦ by cases h
  have hwalked : IsWalkedTo host ignores tree projectRoot root dir :=
    walkedTo_of_opened hproject hbase hroot hdir hopen hread htrimmed fun other above habove ↦
      hrooms other above (habove.trans (List.suffix_cons name dir))
  refine ⟨name, dir, rfl, hwalked, ?_⟩
  apply Shows.of_entry hproject hbase hroot (htrimmed dir List.suffix_rfl) hdir
    (hread dir List.suffix_rfl) (hrooms name dir List.suffix_rfl) (Or.inr ⟨content, hfile⟩)
  rwa [if_neg hnotdir]

end Listing

/-! ## The two together -/

section Complete

variable (host : Host) (ignores : Ignores) (tree : FileTree) (projectRoot : String)
  (root : Location FileName)

/-- The index is the set of the visible files, and the listings show the same files. -/
structure IsComplete : Prop where
  index : ∃ paths truncated,
    (∃ enough, ∀ visits, enough ≤ visits →
      indexProjectPaths host ignores tree projectRoot visits = .ok (paths, truncated)) ∧
        IsIndexOf (IsVisible tree root (ignores tree (host.absoluteRoot projectRoot))) paths
          truncated
  listed : ∀ place, IsRegular tree root place →
    (IsVisible tree root (ignores tree (host.absoluteRoot projectRoot)) place ↔
      IsReached host ignores tree projectRoot root place)

/-- The index is the set of the visible files whose directories can be read, and a reader of the
listings comes to those of them for which every listing on the way has room. -/
structure IsCompleteWithinBounds : Prop where
  index : ∃ paths truncated,
    (∃ enough, ∀ visits, enough ≤ visits →
      indexProjectPaths host ignores tree projectRoot visits = .ok (paths, truncated)) ∧
        IsIndexUpToCap (fun place ↦
          IsVisible tree root (ignores tree (host.absoluteRoot projectRoot)) place ∧
            IsReadable host root place) paths truncated
  reached : ∀ place, IsRegular tree root place →
    IsReached host ignores tree projectRoot root place →
      IsVisible tree root (ignores tree (host.absoluteRoot projectRoot)) place ∧
        IsReadable host root place ∧
          ∀ name above, name :: above <:+ place → HasRoom host tree root above name
  listed : (host.absoluteRoot projectRoot).segments ≠ [] → ∀ place,
    IsVisible tree root (ignores tree (host.absoluteRoot projectRoot)) place →
      IsReadable host root place → (∀ above, above <:+ place.tail → IsTrimmed (textOf above)) →
        (∀ name above, name :: above <:+ place → HasRoom host tree root above name) →
          IsReached host ignores tree projectRoot root place

variable {host tree projectRoot root}

theorem indexProjectPaths_isCompleteWithinBounds (hproject : projectRoot ≠ "")
    (hroot : tree.stat host.links (steps (host.absoluteRoot projectRoot)) = .ok root)
    (hdir : tree.node root = some .dir) {depth : ℕ} (hdepth : HasDepth tree depth) :
    IsCompleteWithinBounds host ignores tree projectRoot root := by
  constructor
  · obtain ⟨paths, truncated, hwalk, hindex⟩ := indexFrom_root
      (ignores tree (host.absoluteRoot projectRoot)) hdepth hroot hdir
    refine ⟨paths, truncated, ⟨((indexForest host root
      (ignores tree (host.absoluteRoot projectRoot)) hdepth).preorder []).length, ?_⟩, hindex⟩
    intro visits hvisits
    rw [indexProjectPaths, if_neg hproject, hroot]
    dsimp only
    rw [if_pos hdir, hwalk visits hvisits]
  · exact fun place hregular hreached ↦ visible_of_reached hroot hdir hregular hreached
  · intro hbase place hvisible hread htrimmed hrooms
    refine reached_of_visible hproject hbase hroot ?_ hvisible hread htrimmed hrooms
    rintro rfl
    obtain ⟨content, hnode⟩ := hvisible.regular
    rw [List.nil_append, hdir] at hnode
    cases hnode

end Complete

/-! ## A crowded directory -/

theorem toNat_ofNat_letter {n : ℕ} (h : n < 5001) : (Char.ofNat (1000 + n)).toNat = 1000 + n := by
  have hvalid : (1000 + n).isValidChar := Or.inl (by omega)
  rw [Char.ofNat, dif_pos hvalid]
  rfl

theorem letter_ne {n : ℕ} (h : n < 5001) {c : Char} (hc : c.toNat < 1000) :
    Char.ofNat (1000 + n) ≠ c := by
  intro heq
  have hcode := toNat_ofNat_letter h
  rw [heq] at hcode
  omega

/-- A name of one letter. -/
def letter (n : ℕ) (h : n < 5001) : FileName where
  text := [Char.ofNat (1000 + n)]
  isName := by
    refine ⟨List.cons_ne_nil _ _, fun hdot ↦ ?_, fun hdots ↦ ?_, fun hslash ↦ ?_⟩
    · exact letter_ne h (by decide) (List.cons_eq_cons.mp hdot).1
    · exact List.cons_ne_nil _ _ (List.cons_eq_cons.mp hdots).2.symm
    · exact letter_ne h (by decide) (List.mem_singleton.mp hslash).symm
  noNul hnul := letter_ne h (by decide) (List.mem_singleton.mp hnul).symm
  short := by
    rw [encode_cons, encode_nil, List.append_nil, String.length_utf8EncodeChar]
    exact (Char.utf8Size_le_four _).trans (by decide)

/-- One file more than a listing has room for. -/
def crowd : List FileName := (List.range 5001).attach.map fun n ↦ letter n.1 (List.mem_range.mp n.2)

theorem nodup_crowd : crowd.Nodup := by
  apply List.Nodup.map _ (List.nodup_attach.mpr List.nodup_range)
  intro n m h
  have hletter := (List.cons_eq_cons.mp (congrArg FileName.text h)).1
  have hcode := congrArg Char.toNat hletter
  rw [toNat_ofNat_letter (List.mem_range.mp n.2), toNat_ofNat_letter (List.mem_range.mp m.2)]
    at hcode
  exact Subtype.ext (by omega)

def crowdedName : FileName where
  text := ['p']
  isName := by decide
  noNul := by decide
  short := by decide

/-- A project `/p` with so many files. -/
def crowdedNode : Location FileName → Option (Node FileName (List UInt8))
  | [] => some .dir
  | [name] => if name = crowdedName then some .dir else none
  | [name, project] => if project = crowdedName ∧ name ∈ crowd then some (.file []) else none
  | _ => none

theorem crowdedNode_project : crowdedNode [crowdedName] = some .dir := by
  rw [crowdedNode, if_pos rfl]

theorem crowdedNode_file {name : FileName} (h : name ∈ crowd) :
    crowdedNode [name, crowdedName] = some (.file []) := by
  rw [crowdedNode, if_pos ⟨rfl, h⟩]

theorem crowdedNode_ne_none {location : Location FileName} (h : crowdedNode location ≠ none) :
    location = [] ∨ location = [crowdedName] ∨ ∃ name ∈ crowd, location = [name, crowdedName] := by
  unfold crowdedNode at h
  split at h
  · exact Or.inl rfl
  · split at h
    · rename_i hname
      exact Or.inr (Or.inl (by rw [hname]))
    · exact absurd rfl h
  · split at h
    · rename_i name project hname
      exact Or.inr (Or.inr ⟨name, hname.2, by rw [hname.1]⟩)
    · exact absurd rfl h
  · exact absurd rfl h

def crowdedTree : FileTree where
  node := crowdedNode
  names := crowdedName :: crowd
  rooted := rfl
  parents name location h := by
    rcases crowdedNode_ne_none h with hroot | hproject | ⟨other, -, hfile⟩
    · exact absurd hroot (List.cons_ne_nil name location)
    · rw [(List.cons_eq_cons.mp hproject).2]
      rfl
    · rw [(List.cons_eq_cons.mp hfile).2]
      exact crowdedNode_project
  listed location h name hname := by
    rcases crowdedNode_ne_none h with rfl | rfl | ⟨other, hother, rfl⟩
    · cases hname
    · exact List.mem_cons.mpr (Or.inl (List.mem_singleton.mp hname))
    · rcases List.mem_cons.mp hname with rfl | hproject
      · exact List.mem_cons_of_mem crowdedName hother
      · exact List.mem_cons.mpr (Or.inl (List.mem_singleton.mp hproject))

def crowdedHost (mayList : Bool) : Host where
  cwd := { segments := [], names := names_nil }
  links := 40
  realpathLinks := 40
  mayList _ := mayList
  sha256 _ := ""
  collate _ _ := true

/-- Nothing is ignored. -/
def noRules : Ignores := fun _ _ _ ↦ false

theorem hasDepth_crowded : HasDepth crowdedTree 2 := by
  intro location h
  rcases crowdedNode_ne_none h with rfl | rfl | ⟨name, -, rfl⟩
  · exact Nat.zero_le 2
  · decide
  · exact Nat.le_refl 2

theorem stat_crowded (mayList : Bool) :
    crowdedTree.stat (crowdedHost mayList).links
      (steps ((crowdedHost mayList).absoluteRoot "/p")) = .ok [crowdedName] := by
  have hsteps : steps ((crowdedHost mayList).absoluteRoot "/p") = Tree.pathTo [crowdedName] := by
    rfl
  rw [hsteps]
  exact Tree.walk_pathTo_self (Or.inl crowdedNode_project) 40

theorem visible_crowded {name : FileName} (h : name ∈ crowd) :
    IsVisible crowdedTree [crowdedName] (fun _ ↦ false) [name] := by
  have htree : crowdedTree.node = crowdedNode := rfl
  constructor
  · refine ⟨[], ?_⟩
    rw [htree, List.singleton_append, crowdedNode_file h]
  · intro above _ _
    rfl
  · rfl

/-- A complete listing of the project would show all of its files. -/
theorem entry_of_isComplete {mayList : Bool}
    (h : IsComplete (crowdedHost mayList) noRules crowdedTree "/p" [crowdedName])
    {name : FileName} (hname : name ∈ crowd) :
    mayList = true ∧ HasRoom (crowdedHost mayList) crowdedTree [crowdedName] [] name := by
  have hvisible := visible_crowded hname
  have hreached := (h.listed [name] hvisible.regular).mp hvisible
  obtain ⟨-, hread, hroom⟩ := visible_of_reached (stat_crowded mayList) crowdedNode_project
    hvisible.regular hreached
  exact ⟨hread [] List.nil_suffix, hroom name [] List.suffix_rfl⟩

/-- A listing leaves a file of a large directory out, and a file of a directory that cannot be read
is neither in the index nor in a listing. -/
theorem not_isComplete_crowded :
    ¬IsComplete (crowdedHost true) noRules crowdedTree "/p" [crowdedName] ∧
      ¬IsComplete (crowdedHost false) noRules crowdedTree "/p" [crowdedName] := by
  constructor
  · intro h
    have hsubset : crowd ⊆ ((entriesOf (crowdedHost true) crowdedTree [crowdedName] []).take
        LIST_ENTRY_CAP).map Dirent.name := fun name hname ↦ (entry_of_isComplete h hname).2
    have hlength := (List.subperm_of_subset nodup_crowd hsubset).length_le
    have hcrowd : crowd.length = 5001 := by
      rw [crowd, List.length_map, List.length_attach, List.length_range]
    rw [hcrowd, List.length_map, List.length_take] at hlength
    have hcap : LIST_ENTRY_CAP = 5000 := rfl
    omega
  · intro h
    have hname : letter 0 (by omega) ∈ crowd :=
      List.mem_map.mpr ⟨⟨0, List.mem_range.mpr (by omega)⟩, List.mem_attach _ _, rfl⟩
    exact Bool.false_ne_true (entry_of_isComplete h hname).1

theorem indexProjectPaths_isCompleteWithinBounds_crowded :
    IsCompleteWithinBounds (crowdedHost true) noRules crowdedTree "/p" [crowdedName] :=
  indexProjectPaths_isCompleteWithinBounds noRules (by decide) (stat_crowded true)
    crowdedNode_project hasDepth_crowded

end Flockctl.FsOperations
