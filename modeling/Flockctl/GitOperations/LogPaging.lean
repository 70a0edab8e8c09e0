import Flockctl.GitOperations.Log
import Flockctl.Graph.PagedListing

/-!
# Following the cursors of the log

Git lists the ancestors of a commit, each in front of its own ancestors. A caller who follows the
cursors reads the listing page by page: the walk ends, all its pages but the last are full, and no
commit comes twice. A commit is lost where it is listed behind a cursor without being an ancestor
of it, and comes back on no later page, so that the walk has all commits exactly when no page ends
in such a place.
-/

namespace Flockctl.GitOperations

open Collections Git Graph Relation

universe u

/-- The commits of a repository, with what the log has of them. -/
structure History (Commit : Type u) where
  parents : Commit → List Commit
  record : Commit → LogRecord (List Char)
  isLegal : ∀ commit, (record commit).IsLegal id
  parents_eq : ∀ commit,
    (record commit).parents = (parents commit).map fun parent ↦ (record parent).sha
  sha_injective : Function.Injective fun commit ↦ (record commit).sha

namespace History

variable {Commit : Type u} (history : History Commit)

def sha (commit : Commit) : List Char := (history.record commit).sha

def IsParent (child parent : Commit) : Prop := parent ∈ history.parents child

/-- The hashes of the commits that a start reaches, none where there is no commit to start at. -/
def ReachableFrom (start : Option Commit) (sha : List Char) : Prop :=
  ∃ first ∈ start, ∃ commit, ReflTransGen history.IsParent first commit ∧ history.sha commit = sha

end History

variable {Commit : Type u}

/-- What git answers when it is asked for the log. `resolve` is the commit that a reference names,
`HEAD` where there is none given, and `listing` is the order in which git walks the ancestors. -/
structure ServesLog (history : History Commit) (resolve : Option (List Char) → Option Commit)
    (listing : Commit → List Commit)
    (git : List (List Char) → RunGitCommandResult (List Char)) : Prop where
  topological : TopologicalListing history.IsParent listing
  resolve_sha : ∀ commit, resolve (some (history.sha commit)) = some commit
  answer : ∀ count startRef start, resolve startRef = some start →
    git (logArgs count startRef) = {
      ok := true
      data := some (logText id (((listing start).take count).map history.record))
      reason := .ok }
  unborn : resolve none = none → ∀ count,
    (git (logArgs count none)).ok = false ∧
      ∃ stderr, (git (logArgs count none)).stderr = some stderr ∧
        mentions "does not have any commits" stderr = true

/-- The cursor and the branch pass their checks. -/
def RunGitLogOptions.Accepted (opts : RunGitLogOptions) : Prop :=
  (∀ cursor ∈ opts.cursor, matchesCursor cursor = true) ∧
    ∀ branch ∈ opts.branch, matchesBranch branch = true

def RunGitLogOptions.startRef (opts : RunGitLogOptions) : Option (List Char) :=
  opts.cursor.or opts.branch

/-- The walk ends, has each reachable commit once, and all its pages but the last are full. -/
def LosesNothing (walk : ℕ → Option (List (List GitLogCommit))) (size : ℕ)
    (reachable : List Char → Prop) : Prop :=
  ∃ fuel read, walk fuel = some read ∧
    (read.flatten.map GitLogCommit.sha).Nodup ∧
    (∀ sha, sha ∈ read.flatten.map GitLogCommit.sha ↔ reachable sha) ∧
    ∀ page ∈ read.dropLast, page.length = size

/-! ## One page -/

theorem rowLimit_natCast {limit : ℕ} (hlimit : 1 ≤ limit) :
    rowLimit (.finite limit) = some (min limit MAX_LIMIT) := by
  have hnum : ((limit : ℚ)).num = limit := Rat.num_natCast limit
  have hden : ((limit : ℚ)).den = 1 := Rat.den_natCast limit
  rw [rowLimit, hnum, hden, if_pos ⟨rfl, by omega⟩, Int.toNat_natCast]

theorem matchesCursor_of_isSha {sha : List Char} (h : IsSha sha) : matchesCursor sha = true := by
  have hall : sha.all (fun c ↦ c.isDigit || ('a' ≤ c && c ≤ 'f') || ('A' ≤ c && c ≤ 'F')) = true := by
    rw [List.all_eq_true]
    intro c hc
    rcases h.2 c hc with hdigit | ⟨hlow, hhigh⟩
    · rw [hdigit, Bool.true_or, Bool.true_or]
    · rw [decide_eq_true hlow, decide_eq_true hhigh, Bool.and_self, Bool.or_true, Bool.true_or]
  have hlength := h.1
  rw [matchesCursor, hall, Bool.and_true, Bool.and_eq_true, decide_eq_true_eq, decide_eq_true_eq]
  omega

/-- A page that is refused has no commits. -/
theorem runGitLog_of_not_accepted {numberText : JsNumber → List Char}
    {git : List (List Char) → RunGitCommandResult (List Char)} {opts : RunGitLogOptions}
    (h : ¬opts.Accepted) : (runGitLog numberText git opts).commits = none := by
  have hrefused : opts.cursor.any (!matchesCursor ·) = true ∨
      opts.branch.any (!matchesBranch ·) = true := by
    simp only [RunGitLogOptions.Accepted, not_and_or, not_forall] at h
    rcases h with ⟨cursor, hmem, hcursor⟩ | ⟨branch, hmem, hbranch⟩
    · left
      rw [Option.mem_def.mp hmem, Option.any_some]
      simpa using hcursor
    · right
      rw [Option.mem_def.mp hmem, Option.any_some]
      simpa using hbranch
  rw [runGitLog]
  cases rowLimit (opts.limit.getD (.finite DEFAULT_LIMIT)) with
  | none => rfl
  | some limit =>
    dsimp only
    split
    · rfl
    · rename_i hcursor
      rw [if_pos (hrefused.resolve_left hcursor)]

theorem any_not_eq_false {α : Type} {check : α → Bool} {value : Option α}
    (h : ∀ a ∈ value, check a = true) : value.any (!check ·) = false := by
  cases value with
  | none => rfl
  | some a => rw [Option.any_some, h a rfl, Bool.not_true]

section

variable {history : History Commit} {resolve : Option (List Char) → Option Commit}
  {listing : Commit → List Commit} {git : List (List Char) → RunGitCommandResult (List Char)}
  (hgit : ServesLog history resolve listing git) {opts : RunGitLogOptions} {size : ℕ}
  (hsize : rowLimit (opts.limit.getD (.finite DEFAULT_LIMIT)) = some size)
  (haccepted : opts.Accepted) (numberText : JsNumber → List Char)

theorem parseGitLogOutput_sha (history : History Commit) (commits : List Commit) :
    (parseGitLogOutput (logText id (commits.map history.record))).map GitLogCommit.sha =
      commits.map history.sha := by
  rw [parseGitLogOutput_logText]
  · rw [List.filterMap_map]
    induction commits with
    | nil => rfl
    | cons commit rest ih =>
      obtain ⟨row, hrow, hsha⟩ := exists_parseGitLogLine_row (history.isLegal commit)
      have hfirst : ((fun record ↦ parseGitLogLine (record.row id)) ∘ history.record) commit =
          some row := hrow
      rw [List.filterMap_cons_some hfirst, List.map_cons, List.map_cons, ih, hsha, History.sha]
  · intro record hrecord
    obtain ⟨commit, -, rfl⟩ := List.mem_map.mp hrecord
    exact history.isLegal commit

include hgit hsize haccepted

/-- The page is the front of the listing, and the cursor is the commit behind it. -/
theorem runGitLog_of_resolve {start : Commit} (hstart : resolve opts.startRef = some start) :
    ∃ commits, (runGitLog numberText git opts).commits = some commits ∧
      commits.map GitLogCommit.sha = ((listing start).take size).map history.sha ∧
      (runGitLog numberText git opts).nextCursor = (listing start)[size]?.map history.sha := by
  have hanswer := hgit.answer (size + 1) _ _ hstart
  rw [RunGitLogOptions.startRef] at hanswer
  have hshas := parseGitLogOutput_sha history ((listing start).take (size + 1))
  rw [runGitLog, hsize]
  dsimp only
  rw [any_not_eq_false haccepted.1, any_not_eq_false haccepted.2, hanswer]
  refine ⟨_, rfl, ?_, ?_⟩
  · rw [List.map_take, hshas, ← List.map_take, List.take_take, min_eq_left (Nat.le_succ size)]
  · rw [if_neg Bool.false_ne_true, if_neg Bool.false_ne_true]
    dsimp only
    rw [← List.getElem?_map, hshas, List.getElem?_map,
      List.getElem?_take_of_lt (Nat.lt_succ_self size)]

/-- A repository without a commit gives one page, which is empty. -/
theorem runGitLog_of_unborn (hstart : resolve opts.startRef = none) (hhead : opts.startRef = none) :
    (runGitLog numberText git opts).commits = some [] ∧
      (runGitLog numberText git opts).nextCursor = none := by
  rw [hhead] at hstart
  obtain ⟨hok, stderr, hstderr, hmentions⟩ := hgit.unborn hstart (size + 1)
  rw [RunGitLogOptions.startRef] at hhead
  rw [runGitLog, hsize]
  dsimp only
  rw [any_not_eq_false haccepted.1, any_not_eq_false haccepted.2, hhead, hok, hstderr,
    Option.getD_some, hmentions]
  exact ⟨rfl, rfl⟩

end

/-! ## The walk -/

section

variable {history : History Commit} {resolve : Option (List Char) → Option Commit}
  {listing : Commit → List Commit} {git : List (List Char) → RunGitCommandResult (List Char)}
  (hgit : ServesLog history resolve listing git) {size : ℕ} (numberText : JsNumber → List Char)

include hgit

/-- The walk reads the pages of the listing. -/
theorem followCursors_eq_pages : ∀ (fuel : ℕ) {opts : RunGitLogOptions} {start : Commit},
    rowLimit (opts.limit.getD (.finite DEFAULT_LIMIT)) = some size → opts.Accepted →
      resolve opts.startRef = some start →
      (followCursors numberText git opts fuel).map (·.map (·.map GitLogCommit.sha)) =
        (pages size listing fuel start).map (·.map (·.map history.sha)) := by
  intro fuel
  induction fuel with
  | zero =>
    intro opts start _ _ _
    rfl
  | succ fuel ih =>
    intro opts start hsize haccepted hstart
    obtain ⟨commits, hcommits, hshas, hnext⟩ :=
      runGitLog_of_resolve hgit hsize haccepted numberText hstart
    rw [followCursors, pages, hcommits, hnext]
    cases hcursor : (listing start)[size]? with
    | none =>
      have hall : (listing start).take size = listing start :=
        List.take_of_length_le (List.getElem?_eq_none_iff.mp hcursor)
      rw [hall] at hshas
      simp only [Option.map_none, Option.map_some, List.map_cons, List.map_nil, hshas]
    | some next =>
      have hsha : matchesCursor (history.sha next) = true :=
        matchesCursor_of_isSha (isSha_sha (history.isLegal next))
      let opts' : RunGitLogOptions := { opts with cursor := some (history.sha next) }
      have haccepted' : opts'.Accepted := by
        refine ⟨?_, haccepted.2⟩
        rintro cursor ⟨⟩
        exact hsha
      have hresolve : resolve opts'.startRef = some next := hgit.resolve_sha next
      have hsize' : rowLimit (opts'.limit.getD (.finite DEFAULT_LIMIT)) = some size := hsize
      have hrest := ih hsize' haccepted' hresolve
      simp only [Option.map_some, Option.map_map]
      rw [Function.comp_def, Function.comp_def]
      simp only [List.map_cons, hshas]
      have hcons := congrArg (Option.map (((listing start).take size).map history.sha :: ·)) hrest
      rw [Option.map_map, Option.map_map] at hcons
      exact hcons

/-- From a commit on, nothing is lost exactly when every cut is clean. -/
theorem losesNothing_iff_cutsClean {opts : RunGitLogOptions} {start : Commit}
    (hsize : rowLimit (opts.limit.getD (.finite DEFAULT_LIMIT)) = some size) (hpos : 0 < size)
    (haccepted : opts.Accepted) (hstart : resolve opts.startRef = some start) :
    LosesNothing (followCursors numberText git opts) size
        (history.ReachableFrom (resolve opts.startRef)) ↔
      CutsClean history.IsParent size listing start := by
  have hlisting := hgit.topological
  have hread (fuel : ℕ) := followCursors_eq_pages hgit numberText fuel hsize haccepted hstart
  have hmem {read : List (List GitLogCommit)} {read' : List (List Commit)}
      (heq : read.map (·.map GitLogCommit.sha) = read'.map (·.map history.sha)) :
      read.flatten.map GitLogCommit.sha = read'.flatten.map history.sha := by
    rw [List.map_flatten, List.map_flatten, heq]
  constructor
  · rintro ⟨fuel, read, hwalk, -, hreachable, -⟩
    have hpages := hread fuel
    rw [hwalk, Option.map_some] at hpages
    obtain ⟨read', hread', heq⟩ := Option.map_eq_some_iff.mp hpages.symm
    rw [← complete_iff_cutsClean hlisting fuel hread']
    intro node hnode
    have hsha : history.sha node ∈ read.flatten.map GitLogCommit.sha :=
      (hreachable _).mpr ⟨start, hstart, node, hnode, rfl⟩
    rw [hmem heq.symm, List.mem_map] at hsha
    obtain ⟨other, hother, hsame⟩ := hsha
    rwa [← history.sha_injective hsame]
  · intro hclean
    obtain ⟨read', hread'⟩ := hlisting.exists_pages hpos _ start (Nat.lt_succ_self _)
    have hpages := hread ((listing start).length + 1)
    rw [hread', Option.map_some] at hpages
    obtain ⟨read, hwalk, heq⟩ := Option.map_eq_some_iff.mp hpages
    refine ⟨_, read, hwalk, ?_, ?_, ?_⟩
    · rw [hmem heq]
      exact (nodup_flatten_of_pages hlisting _ hread').map history.sha_injective
    · intro sha
      rw [hmem heq, List.mem_map]
      constructor
      · rintro ⟨node, hnode, rfl⟩
        exact ⟨start, hstart, node, reaches_of_mem_pages hlisting _ hread' node hnode, rfl⟩
      · rintro ⟨first, hfirst, node, hnode, rfl⟩
        have hsame : start = first := Option.some.inj (hstart.symm.trans hfirst)
        rw [← hsame] at hnode
        exact ⟨node, (complete_iff_cutsClean hlisting _ hread').mpr hclean node hnode, rfl⟩
    · intro page hpage
      have hlast : page.map GitLogCommit.sha ∈ (read'.map (·.map history.sha)).dropLast := by
        rw [← heq, ← List.map_dropLast]
        exact List.mem_map_of_mem hpage
      rw [← List.map_dropLast, List.mem_map] at hlast
      obtain ⟨page', hpage', hsame⟩ := hlast
      have hlength := congrArg List.length hsame
      rw [List.length_map, List.length_map] at hlength
      rw [← hlength]
      exact length_of_mem_dropLast _ hread' page' hpage'

end

/-- A walk whose first page is refused does not come to an end. -/
theorem not_losesNothing_of_not_accepted {numberText : JsNumber → List Char}
    {git : List (List Char) → RunGitCommandResult (List Char)} {opts : RunGitLogOptions}
    (h : ¬opts.Accepted) (size : ℕ) (reachable : List Char → Prop) :
    ¬LosesNothing (followCursors numberText git opts) size reachable := by
  rintro ⟨fuel, read, hwalk, -⟩
  cases fuel with
  | zero => cases hwalk
  | succ fuel =>
    rw [followCursors, runGitLog_of_not_accepted h] at hwalk
    cases hwalk

section

variable {history : History Commit} {resolve : Option (List Char) → Option Commit}
  {listing : Commit → List Commit} {git : List (List Char) → RunGitCommandResult (List Char)}
  (hgit : ServesLog history resolve listing git)

include hgit

/-- From any start, `HEAD` in a repository without a commit included, the walk loses nothing exactly
when the start is accepted and every commit behind a cursor is an ancestor of it. -/
theorem runGitLog_losesNothing_iff (numberText : JsNumber → List Char)
    {opts : RunGitLogOptions} {limit : ℕ}
    (hlimit : opts.limit.getD (.finite DEFAULT_LIMIT) = .finite limit) (hpos : 1 ≤ limit)
    (hstart : opts.startRef = none ∨ (resolve opts.startRef).isSome) :
    LosesNothing (followCursors numberText git opts) (min limit MAX_LIMIT)
        (history.ReachableFrom (resolve opts.startRef)) ↔
      opts.Accepted ∧ ∀ start, resolve opts.startRef = some start →
        CutsClean history.IsParent (min limit MAX_LIMIT) listing start := by
  have hsize : rowLimit (opts.limit.getD (.finite DEFAULT_LIMIT)) =
      some (min limit MAX_LIMIT) := by
    rw [hlimit, rowLimit_natCast hpos]
  have hmin : 0 < min limit MAX_LIMIT := lt_min hpos (by decide)
  by_cases haccepted : opts.Accepted
  · rw [and_iff_right haccepted]
    cases hresolve : resolve opts.startRef with
    | none =>
      have hhead : opts.startRef = none := by
        rw [hresolve] at hstart
        exact hstart.resolve_right Bool.false_ne_true
      obtain ⟨hcommits, hcursor⟩ :=
        runGitLog_of_unborn hgit hsize haccepted numberText hresolve hhead
      constructor
      · rintro - start ⟨⟩
      · intro _
        refine ⟨1, [[]], ?_, List.nodup_nil, ?_, ?_⟩
        · rw [followCursors, hcommits, hcursor]
        · intro sha
          constructor
          · rintro ⟨⟩
          · rintro ⟨first, ⟨⟩, -⟩
        · rintro page ⟨⟩
    | some start =>
      have hiff := losesNothing_iff_cutsClean hgit numberText hsize hmin haccepted hresolve
      rw [hresolve] at hiff
      rw [hiff]
      constructor
      · rintro hclean other ⟨⟩
        exact hclean
      · intro hclean
        exact hclean start rfl
  · constructor
    · intro hloses
      exact absurd hloses (not_losesNothing_of_not_accepted haccepted _ _)
    · rintro ⟨hthere, -⟩
      exact absurd hthere haccepted

end

/-! ## A merge -/

/-- A commit of its own number, in forty digits. -/
def numbered (parents : Fin 4 → List (Fin 4)) (commit : Fin 4) : LogRecord (List Char) where
  sha := List.replicate 40 (Nat.digitChar commit.val)
  author := "a".toList
  email := "a@b".toList
  seconds := 0
  parents := (parents commit).map fun parent : Fin 4 ↦ List.replicate 40 (Nat.digitChar parent.val)
  subject := "s".toList

def diamondParents : Fin 4 → List (Fin 4)
  | 0 => [1, 2]
  | 1 => [3]
  | 2 => [3]
  | 3 => []

theorem isSha_replicate : ∀ commit : Fin 4,
    IsSha (List.replicate 40 (Nat.digitChar commit.val)) := by
  decide +kernel

theorem isLegal_numbered (parents : Fin 4 → List (Fin 4)) (commit : Fin 4) :
    (numbered parents commit).IsLegal id where
  sha := ⟨_, isSha_replicate commit, rfl⟩
  parents parent hparent := by
    obtain ⟨other, -, rfl⟩ := List.mem_map.mp hparent
    exact ⟨_, isSha_replicate other, rfl⟩
  seconds_lt := by
    show 0 < 2 ^ 64
    decide
  oneLine symbol hsymbol := by
    obtain rfl : symbol = '\n' := List.mem_singleton.mp hsymbol
    show '\n' ∉ "a".toList ∧ '\n' ∉ "a@b".toList ∧ '\n' ∉ "s".toList
    decide +kernel

/-- The merge `0` of `1` and `2`, which both come from `3`. -/
def diamond : History (Fin 4) where
  parents := diamondParents
  record := numbered diamondParents
  isLegal := isLegal_numbered diamondParents
  parents_eq _ := rfl
  sha_injective := by
    intro commit other
    revert commit other
    decide +kernel

def diamondListing : Fin 4 → List (Fin 4)
  | 0 => [0, 1, 2, 3]
  | 1 => [1, 3]
  | 2 => [2, 3]
  | 3 => [3]

/-- Every reference that is no hash of a commit names the merge. -/
def diamondResolve (startRef : Option (List Char)) : Option (Fin 4) :=
  some (([0, 1, 2, 3].find? fun commit ↦ startRef == some (diamond.sha commit)).getD 0)

/-- Git reads the number of rows and the start out of its arguments. -/
def diamondGit (args : List (List Char)) : RunGitCommandResult (List Char) :=
  match args with
  | _ :: _ :: count :: _ :: _ :: _ :: _ :: startRef => {
      ok := true
      data := (diamondResolve startRef.head?).map fun start ↦
        logText id (((diamondListing start).take (Nat.ofDigitChars 10 count 0)).map diamond.record)
      reason := .ok }
  | _ => { ok := false, reason := .unknown }

theorem mem_diamondListing_iff (start node : Fin 4) :
    node ∈ diamondListing start ↔ ReflTransGen diamond.IsParent start node := by
  constructor
  · intro hnode
    have hpath : node = start ∨ node ∈ diamondParents start ∨
        ∃ middle ∈ diamondParents start, node ∈ diamondParents middle := by
      revert start node
      decide +kernel
    rcases hpath with rfl | hparent | ⟨middle, hmiddle, hparent⟩
    · exact ReflTransGen.refl
    · exact ReflTransGen.single hparent
    · exact (ReflTransGen.single hmiddle).tail hparent
  · intro hpath
    induction hpath with
    | refl =>
      revert start
      decide +kernel
    | @tail child parent _ hparent ih =>
      have hclosed : ∀ start child parent : Fin 4, child ∈ diamondListing start →
          parent ∈ diamondParents child → parent ∈ diamondListing start := by
        decide +kernel
      exact hclosed start child parent ih hparent

theorem diamond_servesLog : ServesLog diamond diamondResolve diamondListing diamondGit where
  topological := by
    refine ⟨mem_diamondListing_iff, ?_⟩
    intro start
    have hordered : (diamondListing start).Pairwise
        fun earlier later ↦ earlier ∉ diamondListing later := by
      revert start
      decide +kernel
    apply hordered.imp
    intro earlier later hnot hreaches
    exact hnot ((mem_diamondListing_iff later earlier).mpr hreaches)
  resolve_sha := by
    decide +kernel
  answer count startRef start hstart := by
    have hcount : Nat.ofDigitChars 10 (Nat.toDigits 10 count) 0 = count :=
      Nat.ofDigitChars_ten_toDigits
    have hgit : diamondGit (logArgs count startRef) = {
        ok := true
        data := (diamondResolve startRef.toList.head?).map fun start ↦
          logText id (((diamondListing start).take
            (Nat.ofDigitChars 10 (Nat.toDigits 10 count) 0)).map diamond.record)
        reason := .ok } := rfl
    rw [hgit, hcount, Option.head?_toList, hstart, Option.map_some]
  unborn hnone := by
    cases hnone

theorem diamond_cutsClean : CutsClean diamond.IsParent 3 diamondListing 0 := by
  have hnext : (diamondListing 0)[3]? = some 3 := rfl
  rw [cutsClean_iff_of_next hnext]
  constructor
  · intro node hnode
    rw [List.mem_singleton.mp (show node ∈ [3] from hnode)]
  · exact cutsClean_of_last rfl

/-- With pages of three rows only the last commit of the diamond is behind a cursor. -/
theorem runGitLog_losesNothing_iff_diamond :
    LosesNothing (followCursors (fun _ ↦ []) diamondGit { limit := some (.finite 3) }) 3
      (diamond.ReachableFrom (some 0)) := by
  let opts : RunGitLogOptions := { limit := some (.finite (3 : ℕ)) }
  have haccepted : opts.Accepted := by
    constructor
    · rintro cursor ⟨⟩
    · rintro branch ⟨⟩
  have hlimit : opts.limit.getD (.finite DEFAULT_LIMIT) = .finite (3 : ℕ) := rfl
  apply (runGitLog_losesNothing_iff diamond_servesLog (fun _ ↦ []) hlimit (by decide)
    (Or.inl rfl)).mpr
  refine ⟨haccepted, ?_⟩
  rintro start ⟨⟩
  exact diamond_cutsClean

/-- A walk over the diamond with one row on a page loses the second parent of the merge. -/
theorem not_losesNothing_diamond :
    ¬LosesNothing (followCursors (fun _ ↦ []) diamondGit { limit := some (.finite 1) }) 1
      (diamond.ReachableFrom (some 0)) := by
  let opts : RunGitLogOptions := { limit := some (.finite (1 : ℕ)) }
  have hsize : rowLimit (opts.limit.getD (.finite DEFAULT_LIMIT)) = some 1 :=
    rowLimit_natCast (by decide)
  have haccepted : opts.Accepted := by
    constructor
    · rintro cursor ⟨⟩
    · rintro branch ⟨⟩
  have hstart : diamondResolve opts.startRef = some 0 := rfl
  have hiff := losesNothing_iff_cutsClean diamond_servesLog (fun _ ↦ []) hsize (by decide)
    haccepted hstart
  intro hloses
  have hclean := hiff.mp hloses 0 1 ReflTransGen.refl rfl 2 (by decide)
  rw [← mem_diamondListing_iff] at hclean
  exact absurd hclean (by decide)

end Flockctl.GitOperations
