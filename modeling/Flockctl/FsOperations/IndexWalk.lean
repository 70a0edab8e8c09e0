import Flockctl.FsOperations.Operations
import Flockctl.Graph.DepthFirst

/-!
# The walk of the index

The index takes the directories of the project depth first from a stack of texts. Below it stands
the forest of the directories that are not ignored: the walk comes to them in its order, and the
answer is what a walker with a cap collects at its stops, which are the directories and all of their
entries.
-/

namespace Flockctl.FsOperations

open Collections Encoding Files Graph Paths

/-- The names of an entry below the root of the project, innermost first. -/
abbrev Place := List FileName

/-- The path of a place from the root. -/
def textOf (place : Place) : List Char := ['/'].intercalate (place.reverse.map FileName.text)

@[simp] theorem textOf_nil : textOf [] = [] := rfl

theorem isName_of_mem_place {place : Place} {segment : Segment}
    (h : segment ∈ place.reverse.map FileName.text) : segment.IsName := by
  obtain ⟨name, -, rfl⟩ := List.mem_map.mp h
  exact name.isName

theorem textOf_eq_nil_iff (place : Place) : textOf place = [] ↔ place = [] := by
  rw [textOf, intercalate_eq_nil_iff fun _ ↦ isName_of_mem_place, List.map_eq_nil_iff,
    List.reverse_eq_nil_iff]

theorem textOf_cons (name : FileName) (dir : Place) :
    textOf (name :: dir) =
      if textOf dir = [] then name.text else textOf dir ++ '/' :: name.text := by
  by_cases hroot : dir = []
  · rw [hroot, if_pos textOf_nil]
    exact List.intercalate_singleton
  · rw [if_neg (mt (textOf_eq_nil_iff dir).mp hroot)]
    have hnames : dir.reverse.map FileName.text ≠ [] := by
      rwa [ne_eq, List.map_eq_nil_iff, List.reverse_eq_nil_iff]
    rw [textOf, List.reverse_cons, List.map_append, List.map_singleton,
      intercalate_append hnames (List.cons_ne_nil _ _), List.intercalate_singleton, textOf,
      List.singleton_append]

/-- Names that are joined by slashes are those between the slashes. -/
theorem intercalate_names_injective {names others : List Segment}
    (hnames : ∀ name ∈ names, Segment.IsName name) (hothers : ∀ name ∈ others, Segment.IsName name)
    (h : ['/'].intercalate names = ['/'].intercalate others) : names = others := by
  by_cases hempty : names = []
  · rw [hempty] at h
    rw [hempty]
    exact ((intercalate_eq_nil_iff hothers).mp h.symm).symm
  · have hother : others ≠ [] := by
      intro hnone
      rw [hnone] at h
      exact hempty ((intercalate_eq_nil_iff hnames).mp h)
    rw [← List.splitOn_intercalate '/' (fun name hname ↦ (hnames name hname).2.2.2) hempty, h,
      List.splitOn_intercalate '/' (fun name hname ↦ (hothers name hname).2.2.2) hother]

theorem textOf_injective : Function.Injective textOf := by
  intro place other h
  have hnames := intercalate_names_injective (fun _ ↦ isName_of_mem_place)
    (fun _ ↦ isName_of_mem_place) h
  exact List.reverse_injective (List.map_injective_iff.mpr text_injective hnames)

theorem isAbsolute_textOf (place : Place) : isAbsolute (String.ofList (textOf place)) = false := by
  rw [isAbsolute, String.toList_ofList, textOf]
  cases hnames : place.reverse.map FileName.text with
  | nil => rfl
  | cons first rest =>
    have hname : first.IsName := isName_of_mem_place (hnames ▸ List.mem_cons_self)
    obtain ⟨c, tail, rfl⟩ := List.exists_cons_of_ne_nil hname.1
    have hc : c ≠ '/' := fun h ↦ hname.2.2.2 (h ▸ List.mem_cons_self)
    cases rest <;> simpa using hc

theorem segments_resolve_textOf (base : AbsolutePath) (place : Place) :
    (resolve base (String.ofList (textOf place))).segments =
      base.segments ++ place.reverse.map FileName.text := by
  simp only [resolve, isAbsolute_textOf, String.toList_ofList, walk]
  by_cases hroot : place = []
  · rw [hroot]
    simp [textOf, enter]
  · have hnames : place.reverse.map FileName.text ≠ [] := by
      rwa [ne_eq, List.map_eq_nil_iff, List.reverse_eq_nil_iff]
    rw [textOf, List.splitOn_intercalate '/' (fun name hname ↦
        (isName_of_mem_place hname).2.2.2) hnames,
      foldl_enter_names _ _ fun _ ↦ isName_of_mem_place, List.reverse_append,
      List.reverse_reverse]
    simp

theorem steps_of_segments {base path : AbsolutePath} {place : Place}
    (h : path.segments = base.segments ++ place.reverse.map FileName.text) :
    steps path = steps base ++ Tree.pathTo place := by
  have hplace : (place.reverse.map FileName.text).map stepOf = Tree.pathTo place :=
    steps_pathOf place
  rw [steps, h, List.map_append, hplace]
  rfl

/-! ## Reading a directory of the project -/

section Reading

variable {host : Host} {tree : FileTree} {root : Location FileName} {base : AbsolutePath}

theorem stat_place (hroot : tree.stat host.links (steps base) = .ok root) {place : Place}
    (hstands : tree.Stands (place ++ root)) :
    tree.stat host.links (steps base ++ Tree.pathTo place) = .ok (place ++ root) := by
  obtain ⟨left, -, hrest⟩ := Tree.walk_append hroot
  have hwalk := Tree.walk_pathTo_below hstands left []
  rw [List.append_nil, Tree.walk_nil] at hwalk
  rw [Tree.stat, hrest, hwalk]

theorem dirents_place (hroot : tree.stat host.links (steps base) = .ok root) {dir : Place}
    (hdir : tree.node (dir ++ root) = some .dir) :
    dirents host tree (steps base ++ Tree.pathTo dir) =
      if host.mayList (dir ++ root) then
        .ok ((tree.children (dir ++ root)).map (direntOf tree (dir ++ root)))
      else .error .EACCES := by
  have hstat := stat_place hroot (Or.inl hdir)
  have hnames : tree.readdir host.links (steps base ++ Tree.pathTo dir) =
      .ok (tree.children (dir ++ root)) := by
    rw [Tree.readdir]
    have hwalk : tree.stat host.links (steps base ++ Tree.pathTo dir) = .ok (dir ++ root) := hstat
    rw [hwalk]
    exact if_pos hdir
  rw [dirents, hnames, hstat]
  rfl

variable (host tree root)

/-- What the walk sees in a directory, in the order in which it looks at it. -/
def entriesOf (dir : Place) : List Dirent :=
  if host.mayList (dir ++ root) then
    ((tree.children (dir ++ root)).map (direntOf tree (dir ++ root))).mergeSort (listedBefore host)
  else []

variable {host tree root}

theorem mem_entriesOf {dir : Place} {d : Dirent} :
    d ∈ entriesOf host tree root dir ↔
      host.mayList (dir ++ root) = true ∧ tree.node (d.name :: (dir ++ root)) ≠ none ∧
        d = direntOf tree (dir ++ root) d.name := by
  rw [entriesOf]
  split
  · rename_i hmay
    rw [List.mem_mergeSort, List.mem_map]
    constructor
    · rintro ⟨name, hname, rfl⟩
      exact ⟨hmay, Tree.mem_children.mp hname, rfl⟩
    · rintro ⟨-, hnode, heq⟩
      exact ⟨d.name, Tree.mem_children.mpr hnode, heq.symm⟩
  · rename_i hmay
    simp [hmay]

theorem nodup_entriesOf (dir : Place) : ((entriesOf host tree root dir).map Dirent.name).Nodup := by
  rw [entriesOf]
  split
  · have hnames : (((tree.children (dir ++ root)).map (direntOf tree (dir ++ root))).map
        Dirent.name) = tree.children (dir ++ root) := by
      rw [List.map_map]
      exact List.map_id _
    rw [((List.mergeSort_perm _ _).map Dirent.name).nodup_iff, hnames]
    exact (List.nodup_dedup tree.names).filter _
  · exact List.nodup_nil

end Reading

/-! ## The walk -/

section Walking

variable (host : Host) (tree : FileTree) (root : Location FileName) (ignores : List Char → Bool)

/-- The walk goes on to the directories that are not ignored. -/
def isDescended (dir : Place) (d : Dirent) : Bool :=
  d.isDirectory && !ignores (textOf (d.name :: dir) ++ ['/'])

/-- An entry gives the path of a file that is not ignored. -/
def stopAt (dir : Place) (d : Dirent) : Option (List Char) :=
  if !d.isDirectory && d.isFile && !ignores (textOf (d.name :: dir)) then
    some (textOf (d.name :: dir))
  else none

/-- A directory, of which the walk takes no path, and its entries. -/
def stopsOf (dir : Place) : List (Option (List Char)) :=
  none :: (entriesOf host tree root dir).map (stopAt ignores dir)

/-- A tree in which no location has more names than `depth`. -/
def HasDepth (depth : ℕ) : Prop :=
  ∀ location, tree.node location ≠ none → location.length ≤ depth

variable {tree}

/-- The directories of the walk. Those that are put on the stack last are taken first. -/
def indexForest {depth : ℕ} (hdepth : HasDepth tree depth) : Forest Place where
  children dir :=
    (((entriesOf host tree root dir).filter (isDescended ignores dir)).reverse.map Dirent.name).map
      (· :: dir)
  height dir := depth - dir.length
  descends dir child hchild := by
    obtain ⟨name, hname, rfl⟩ := List.mem_map.mp hchild
    obtain ⟨d, hd, rfl⟩ := List.mem_map.mp hname
    have hentry := mem_entriesOf.mp (List.mem_filter.mp (List.mem_reverse.mp hd)).1
    have hlength := hdepth _ hentry.2.1
    rw [List.length_cons, List.length_append] at hlength
    rw [List.length_cons]
    omega

variable {host root}

/-- One directory of the walk, as a walker with a cap sees it. -/
theorem indexEntries_eq (dir : Place) (entries : List Dirent) (stack paths : List (List Char)) :
    ∃ left, indexEntries ignores (textOf dir) entries (stack, paths, false) =
        (left, collect INDEX_PATH_CAP (entries.map (stopAt ignores dir)) paths) ∧
      ((collect INDEX_PATH_CAP (entries.map (stopAt ignores dir)) paths).2 = false →
        left = (((entries.filter (isDescended ignores dir)).reverse.map Dirent.name).map
          fun name ↦ textOf (name :: dir)) ++ stack) := by
  induction entries generalizing stack paths with
  | nil => exact ⟨stack, rfl, fun _ ↦ rfl⟩
  | cons d entries ih =>
    simp only [indexEntries, List.map_cons, collect]
    split
    · exact ⟨stack, rfl, fun h ↦ by cases h⟩
    · rw [← textOf_cons]
      by_cases hdirectory : d.isDirectory = true
      · have hstop : stopAt ignores dir d = none := by simp [stopAt, hdirectory]
        rw [if_pos hdirectory, hstop, Option.toList_none, List.append_nil]
        by_cases hignored : ignores (textOf (d.name :: dir) ++ ['/']) = true
        · have hfilter : (d :: entries).filter (isDescended ignores dir) =
              entries.filter (isDescended ignores dir) :=
            List.filter_cons_of_neg (by simp [isDescended, hignored])
          rw [if_pos hignored, hfilter]
          exact ih stack paths
        · have hfilter : (d :: entries).filter (isDescended ignores dir) =
              d :: entries.filter (isDescended ignores dir) :=
            List.filter_cons_of_pos (by simp [isDescended, hdirectory, hignored])
          rw [if_neg hignored, hfilter]
          obtain ⟨left, hleft, hpushed⟩ := ih (textOf (d.name :: dir) :: stack) paths
          refine ⟨left, hleft, fun h ↦ ?_⟩
          rw [hpushed h]
          simp
      · have hfilter : (d :: entries).filter (isDescended ignores dir) =
            entries.filter (isDescended ignores dir) :=
          List.filter_cons_of_neg (by simp [isDescended, hdirectory])
        rw [if_neg hdirectory, hfilter]
        by_cases hskipped : (!d.isFile || ignores (textOf (d.name :: dir))) = true
        · have hstop : stopAt ignores dir d = none := by
            rw [stopAt, if_neg]
            revert hskipped
            cases d.isFile <;> cases ignores (textOf (d.name :: dir)) <;> simp
          rw [if_pos hskipped, hstop, Option.toList_none, List.append_nil]
          exact ih stack paths
        · have hstop : stopAt ignores dir d = some (textOf (d.name :: dir)) := by
            rw [stopAt, if_pos]
            revert hskipped
            simp [hdirectory]
          rw [if_neg hskipped, hstop]
          exact ih stack _

theorem mem_children_iff {depth : ℕ} (hdepth : HasDepth tree depth) {dir child : Place} :
    child ∈ (indexForest host root ignores hdepth).children dir ↔
      ∃ name, child = name :: dir ∧ host.mayList (dir ++ root) = true ∧
        tree.node (name :: (dir ++ root)) = some .dir ∧
          ignores (textOf (name :: dir) ++ ['/']) = false := by
  simp only [indexForest, List.mem_map, List.mem_reverse, List.mem_filter, isDescended,
    Bool.and_eq_true, Bool.not_eq_true']
  constructor
  · rintro ⟨name, ⟨d, ⟨hd, hdirectory, hignored⟩, rfl⟩, rfl⟩
    obtain ⟨hmay, -, heq⟩ := mem_entriesOf.mp hd
    refine ⟨d.name, rfl, hmay, ?_, hignored⟩
    rw [heq] at hdirectory
    exact (Node.isDir_iff _).mp hdirectory
  · rintro ⟨name, rfl, hmay, hnode, hignored⟩
    refine ⟨name, ⟨direntOf tree (dir ++ root) name, ⟨?_, ?_, hignored⟩, rfl⟩, rfl⟩
    · exact mem_entriesOf.mpr ⟨hmay, by simp [direntOf, hnode], rfl⟩
    · exact (Node.isDir_iff _).mpr hnode

/-- A walk that has all it may take is at its end. -/
theorem indexFrom_full {base : AbsolutePath} {paths : List (List Char)}
    (h : INDEX_PATH_CAP ≤ paths.length) (visits : ℕ) (stack : List (List Char)) :
    indexFrom host tree ignores base visits (stack, paths, true) = (paths, true) := by
  cases visits with
  | zero => rfl
  | succ visits =>
    cases stack with
    | nil => rfl
    | cons rel stack => rw [indexFrom, if_pos h]

/-- A walk with enough room for its directories collects at the stops of the forest. -/
theorem indexFrom_eq {base : AbsolutePath} {depth : ℕ} (hdepth : HasDepth tree depth)
    (hroot : tree.stat host.links (steps base) = .ok root) {visits : ℕ} {stack : List Place}
    (hdirs : ∀ dir ∈ stack, tree.node (dir ++ root) = some .dir)
    (hvisits : (stack.flatMap (indexForest host root ignores hdepth).preorder).length ≤ visits)
    (paths : List (List Char)) :
    indexFrom host tree ignores base visits (stack.map textOf, paths, false) =
      collect INDEX_PATH_CAP
        ((stack.flatMap (indexForest host root ignores hdepth).preorder).flatMap
          (stopsOf host tree root ignores)) paths := by
  induction visits generalizing stack paths with
  | zero =>
    cases stack with
    | nil => rfl
    | cons dir rest =>
      rw [Forest.flatMap_preorder_cons] at hvisits
      cases hvisits
  | succ visits ih =>
    cases stack with
    | nil => rfl
    | cons dir rest =>
      have hdir := hdirs dir List.mem_cons_self
      have hsteps : steps (resolve base (String.ofList (textOf dir))) =
          steps base ++ Tree.pathTo dir :=
        steps_of_segments (segments_resolve_textOf base dir)
      rw [Forest.flatMap_preorder_cons, List.length_cons] at hvisits
      rw [Forest.flatMap_preorder_cons, List.flatMap_cons, stopsOf, List.map_cons, indexFrom,
        List.cons_append, collect]
      split
      · rfl
      simp only [Option.toList_none, List.append_nil, hsteps, dirents_place hroot hdir]
      by_cases hmay : host.mayList (dir ++ root) = true
      · have hentries : entriesOf host tree root dir =
            ((tree.children (dir ++ root)).map (direntOf tree (dir ++ root))).mergeSort
              (listedBefore host) := if_pos hmay
        rw [if_pos hmay]
        dsimp only
        rw [← hentries, collect_append]
        obtain ⟨left, hleft, hpushed⟩ := indexEntries_eq ignores dir
          (entriesOf host tree root dir) (rest.map textOf) paths
        rw [hleft]
        generalize hgot : collect INDEX_PATH_CAP
          ((entriesOf host tree root dir).map (stopAt ignores dir)) paths = got at hpushed ⊢
        obtain ⟨found, givenUp⟩ := got
        cases givenUp with
        | true =>
          have hfull := le_length_of_collect (congrArg Prod.snd hgot)
          rw [hgot] at hfull
          exact indexFrom_full ignores hfull visits left
        | false =>
          have hstack : left = ((indexForest host root ignores hdepth).children dir ++ rest).map
              textOf := by
            rw [hpushed rfl, List.map_append]
            simp only [indexForest, List.map_map]
            rfl
          rw [hstack]
          refine ih ?_ (by omega) found
          intro next hnext
          rcases List.mem_append.mp hnext with hchild | hold
          · obtain ⟨name, rfl, -, hnode, -⟩ := (mem_children_iff ignores hdepth).mp hchild
            exact hnode
          · exact hdirs next (List.mem_cons_of_mem dir hold)
      · have hentries : entriesOf host tree root dir = [] := if_neg hmay
        have hchildren : (indexForest host root ignores hdepth).children dir = [] := by
          simp [indexForest, hentries]
        rw [if_neg hmay, hentries, hchildren]
        rw [hchildren, List.nil_append] at hvisits
        exact ih (fun next hnext ↦ hdirs next (List.mem_cons_of_mem dir hnext)) (by omega) paths

/-! ## The directories and the files of the walk -/

theorem mem_preorder_iff {depth : ℕ} (hdepth : HasDepth tree depth)
    (hdir : tree.node root = some .dir) {dir : Place} :
    dir ∈ (indexForest host root ignores hdepth).preorder [] ↔
      tree.node (dir ++ root) = some .dir ∧
        (∀ above, above <:+ dir → above ≠ [] → ignores (textOf above ++ ['/']) = false) ∧
          ∀ above, above <:+ dir.tail → dir ≠ [] → host.mayList (above ++ root) = true := by
  constructor
  · intro h
    apply Forest.preorder_induction (fun dir ↦ tree.node (dir ++ root) = some .dir ∧
      (∀ above, above <:+ dir → above ≠ [] → ignores (textOf above ++ ['/']) = false) ∧
        ∀ above, above <:+ dir.tail → dir ≠ [] → host.mayList (above ++ root) = true) _ _ h
    · rintro dir ⟨-, hopen, hread⟩ child hchild
      obtain ⟨name, rfl, hmay, hnode, hignored⟩ := (mem_children_iff ignores hdepth).mp hchild
      refine ⟨hnode, fun above habove hne ↦ ?_, fun above habove _ ↦ ?_⟩
      · rcases List.suffix_cons_iff.mp habove with rfl | hup
        · exact hignored
        · exact hopen above hup hne
      · cases dir with
        | nil =>
          rw [List.suffix_nil.mp habove]
          exact hmay
        | cons outer dir =>
          rcases List.suffix_cons_iff.mp habove with rfl | hup
          · exact hmay
          · exact hread above hup (List.cons_ne_nil outer dir)
    · refine ⟨hdir, fun above habove hne ↦ absurd (List.suffix_nil.mp habove) hne, ?_⟩
      intro above _ hne
      exact absurd rfl hne
  · rintro ⟨hnode, hopen, hread⟩
    induction dir with
    | nil => exact Forest.self_mem_preorder _ []
    | cons name dir ih =>
      have hparent : dir ∈ (indexForest host root ignores hdepth).preorder [] := by
        apply ih (tree.parents name _ fun hnone ↦
          Option.some_ne_none _ (hnode.symm.trans hnone))
        · exact fun above habove ↦ hopen above (habove.trans (List.suffix_cons name dir))
        · intro above habove _
          exact hread above (habove.trans (List.tail_suffix dir)) (List.cons_ne_nil name dir)
      apply Forest.child_mem_preorder hparent
      rw [mem_children_iff]
      exact ⟨name, rfl, hread dir List.suffix_rfl (List.cons_ne_nil name dir), hnode,
        hopen _ List.suffix_rfl (List.cons_ne_nil name dir)⟩

theorem suffix_of_mem_preorder {depth : ℕ} (hdepth : HasDepth tree depth) {dir below : Place}
    (h : below ∈ (indexForest host root ignores hdepth).preorder dir) : dir <:+ below := by
  apply Forest.preorder_induction (fun below ↦ dir <:+ below) _ List.suffix_rfl h
  intro next hnext child hchild
  obtain ⟨name, rfl, -⟩ := (mem_children_iff ignores hdepth).mp hchild
  exact hnext.trans (List.suffix_cons name next)

theorem nodup_preorder_index {depth : ℕ} (hdepth : HasDepth tree depth) (dir : Place) :
    ((indexForest host root ignores hdepth).preorder dir).Nodup := by
  apply Forest.nodup_preorder
  intro dir
  have hnames : (((entriesOf host tree root dir).filter (isDescended ignores dir)).reverse.map
      Dirent.name).Nodup := by
    rw [List.map_reverse, List.nodup_reverse]
    exact (nodup_entriesOf dir).sublist (List.filter_sublist.map Dirent.name)
  have hchildren : (indexForest host root ignores hdepth).children dir =
      (((entriesOf host tree root dir).filter (isDescended ignores dir)).reverse.map
        Dirent.name).map (· :: dir) := rfl
  rw [hchildren, List.pairwise_map]
  refine hnames.imp fun {name other} hne below hbelow hother ↦ hne ?_
  have hleft := suffix_of_mem_preorder ignores hdepth hbelow
  have hright := suffix_of_mem_preorder ignores hdepth hother
  have hsame := (List.suffix_of_suffix_length_le hleft hright (by simp)).eq_of_length (by simp)
  exact (List.cons_eq_cons.mp hsame).1

end Walking

end Flockctl.FsOperations
