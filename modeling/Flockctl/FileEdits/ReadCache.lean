import Flockctl.FileEdits.Recording
import Mathlib.Algebra.GroupWithZero.Nat
import Mathlib.Data.Rat.Init

/-!
# The cache of the Read tool

The Read tool keeps the lines of the files it has read, under the modification time and the size
they had. A counter holds the number of lines of all entries, and the oldest entries go when there
are too many entries or too many lines. A tool that writes a file drops its entry.
-/

namespace Flockctl.Collections.JsMap

universe u v

variable {Key : Type u} {Value : Type v}

/-- The sum of a weight over the entries. -/
def total (weight : Value → ℕ) (map : JsMap Key Value) : ℕ :=
  (map.entries.map fun entry ↦ weight entry.2).sum

variable [DecidableEq Key] (weight : Value → ℕ)

theorem total_set (map : JsMap Key Value) (key : Key) (value : Value) :
    (map.set key value).total weight + ((map.get key).map weight).getD 0 =
      map.total weight + weight value := by
  have hlists (entries : List (Key × Value)) :
      ((setEntries key value entries).map fun entry ↦ weight entry.2).sum +
        ((entries.lookup key).map weight).getD 0 =
          (entries.map fun entry ↦ weight entry.2).sum + weight value := by
    induction entries with
    | nil => simp [setEntries]
    | cons entry rest ih =>
      rw [setEntries, lookup_entry]
      by_cases hkey : entry.1 = key
      · rw [if_pos hkey, if_pos hkey.symm]
        simp only [List.map_cons, List.sum_cons, Option.map_some, Option.getD_some]
        omega
      · rw [if_neg hkey, if_neg (Ne.symm hkey)]
        simp only [List.map_cons, List.sum_cons]
        omega
  exact hlists map.entries

theorem total_delete (map : JsMap Key Value) (key : Key) :
    (map.delete key).total weight + ((map.get key).map weight).getD 0 = map.total weight := by
  have hlists (entries : List (Key × Value)) (hnodup : (entries.map Prod.fst).Nodup) :
      ((entries.filter fun entry ↦ decide (entry.1 ≠ key)).map fun entry ↦ weight entry.2).sum +
        ((entries.lookup key).map weight).getD 0 =
          (entries.map fun entry ↦ weight entry.2).sum := by
    induction entries with
    | nil => rfl
    | cons entry rest ih =>
      rw [List.map_cons, List.nodup_cons] at hnodup
      rw [lookup_entry]
      by_cases hkey : entry.1 = key
      · have hrest : rest.filter (fun entry ↦ decide (entry.1 ≠ key)) = rest := by
          apply List.filter_eq_self.mpr
          intro other hother
          apply decide_eq_true
          rintro rfl
          exact hnodup.1 (hkey ▸ List.mem_map_of_mem hother)
        rw [List.filter_cons_of_neg (by simpa using hkey), hrest, if_pos hkey.symm]
        simp only [List.map_cons, List.sum_cons, Option.map_some, Option.getD_some]
        omega
      · rw [List.filter_cons_of_pos (by simpa using hkey), if_neg (Ne.symm hkey)]
        have hrest := ih hnodup.2
        simp only [List.map_cons, List.sum_cons]
        omega
  exact hlists map.entries map.nodup

end Flockctl.Collections.JsMap

namespace Flockctl.FileEdits

open Collections Encoding Transition

/-! ## The code -/

structure FileStat where
  isFile : Bool
  mtimeMs : ℚ
  size : ℕ
  deriving DecidableEq

/-- What a read finds at its path, as `statSync` and `readFileSync` have it; `none` is a call that
throws. Another program may write the file between the two. -/
structure OnDisk where
  stat : Option FileStat
  bytes : Option (List UInt8)
  deriving DecidableEq

structure ReadCacheEntry where
  mtimeMs : ℚ
  size : ℕ
  lines : List (List Char)
  deriving DecidableEq

def READ_CACHE_MAX_ENTRIES : ℕ := 128

def READ_CACHE_MAX_TOTAL_LINES : ℕ := 200000

/-- The map and the counter beside it. -/
structure ReadCache where
  readCache : JsMap (List Char) ReadCacheEntry
  readCacheTotalLines : ℤ

inductive CachedRead
  | missing
  | thrown
  | lines (lines : List (List Char))
  deriving DecidableEq

/-- `content.split("\n")` -/
def splitLines (bytes : List UInt8) : List (List Char) := (decode bytes).splitOn '\n'

namespace ReadCache

def new : ReadCache := ⟨JsMap.empty, 0⟩

/-- The entry of a path, if it has the time and the size of the file. -/
def hit (cache : ReadCache) (absPath : List Char) (st : FileStat) : Option ReadCacheEntry :=
  match cache.readCache.get absPath with
  | some cached =>
    if cached.mtimeMs = st.mtimeMs ∧ cached.size = st.size then some cached else none
  | none => none

/-- The oldest entry goes. -/
def dropOldest (cache : ReadCache) : ReadCache :=
  match cache.readCache.entries with
  | [] => cache
  | (oldestKey, oldest) :: _ =>
    ⟨cache.readCache.delete oldestKey, cache.readCacheTotalLines - oldest.lines.length⟩

theorem size_dropOldest_lt (cache : ReadCache) (h : cache.readCache.size > 0) :
    cache.dropOldest.readCache.size < cache.readCache.size := by
  rw [dropOldest]
  split
  · rename_i hnil
    rw [JsMap.size, hnil] at h
    exact absurd h (Nat.lt_irrefl 0)
  · rename_i oldestKey oldest rest hentries
    have hget : cache.readCache.get oldestKey = some oldest := by
      rw [← JsMap.mem_entries_iff, hentries]
      exact List.mem_cons_self
    exact cache.readCache.size_delete_lt hget

/-- `while` there are entries and too much is held, the oldest goes. -/
def evictWhile (isOver : ReadCache → Bool) (cache : ReadCache) : ReadCache :=
  if cache.readCache.size > 0 ∧ isOver cache then evictWhile isOver cache.dropOldest else cache
termination_by cache.readCache.size
decreasing_by exact cache.size_dropOldest_lt (And.left ‹_›)

def tooManyEntries (cache : ReadCache) : Bool :=
  cache.readCache.size > READ_CACHE_MAX_ENTRIES

def tooManyLines (cache : ReadCache) : Bool :=
  cache.readCacheTotalLines > READ_CACHE_MAX_TOTAL_LINES

/-- The entry is set, in the place of the one that the path has. -/
def store (cache : ReadCache) (absPath : List Char) (entry : ReadCacheEntry) : ReadCache where
  readCache := cache.readCache.set absPath entry
  readCacheTotalLines :=
    let kept : ℤ := match cache.readCache.get absPath with
      | some cached => cache.readCacheTotalLines - cached.lines.length
      | none => cache.readCacheTotalLines
    kept + entry.lines.length

def readFileLinesCached (cache : ReadCache) (absPath : List Char) (disk : OnDisk) :
    CachedRead × ReadCache :=
  match disk.stat with
  | none => (.missing, cache)
  | some st =>
    if st.isFile = false then (.missing, cache)
    else
      match cache.hit absPath st with
      | some cached =>
        -- Deleting and setting makes the entry the newest.
        (.lines cached.lines,
          { cache with readCache := (cache.readCache.delete absPath).set absPath cached })
      | none =>
        match disk.bytes with
        | none => (.thrown, cache)
        | some bytes =>
          let lines := splitLines bytes
          let stored := cache.store absPath ⟨st.mtimeMs, st.size, lines⟩
          (.lines lines, (stored.evictWhile tooManyEntries).evictWhile tooManyLines)

def invalidate (cache : ReadCache) (absPath : List Char) : ReadCache :=
  match cache.readCache.get absPath with
  | some cached =>
    ⟨cache.readCache.delete absPath, cache.readCacheTotalLines - cached.lines.length⟩
  | none => cache

end ReadCache

/-- The lines a call asks for, counted from 1. -/
structure LineRange where
  startLine : Option ℤ
  endLine : Option ℤ
  deriving DecidableEq

inductive ReadOutput
  | fileNotFound
  | text (text : List Char)
  deriving DecidableEq

/-- Where an index of `slice` points; a negative one counts from the end. -/
def sliceIndex (length : ℕ) (index : ℤ) : ℕ :=
  if index < 0 then (length + index).toNat else min index.toNat length

/-- `lines.slice(start, end).join("\n")` -/
def LineRange.join (range : LineRange) (lines : List (List Char)) : List Char :=
  let first := sliceIndex lines.length (range.startLine.getD 1 - 1)
  let last := sliceIndex lines.length (range.endLine.getD lines.length)
  ['\n'].intercalate ((lines.take last).drop first)

/-- The Read tool; `inside` tells whether `safePath` lets the path through, and no output is a call
that throws. -/
def executeRead (cache : ReadCache) (absPath : List Char) (inside : Bool) (disk : OnDisk)
    (range : LineRange) : Option ReadOutput × ReadCache :=
  if inside = false then (none, cache)
  else
    match cache.readFileLinesCached absPath disk with
    | (.thrown, next) => (none, next)
    | (.missing, next) => (some .fileNotFound, next)
    | (.lines lines, next) => (some (.text (range.join lines)), next)

/-! ## Runs -/

/-- Whether a call of `Write`, `Edit` or `MultiEdit` came to its `writeFileSync`. -/
def wrote : Option ToolOutput → Bool
  | some .written => true
  | some (.edit .edited) => true
  | some (.multiEdit (.tried _)) => true
  | _ => false

/-- A call of the Read tool, with what it finds, or of a tool that writes. -/
inductive Access
  | read (absPath : List Char) (inside : Bool) (disk : OnDisk) (range : LineRange)
  | write (absPath : List Char) (target : Target) (call : FileCall)

def ReadCache.step (cache : ReadCache) : Access → ReadCache
  | .read absPath inside disk range => (executeRead cache absPath inside disk range).2
  | .write absPath target call =>
    if wrote (executeToolCall target call) then cache.invalidate absPath else cache

/-- The cache after a run of calls. -/
abbrev ReadCache.after (accesses : List Access) : ReadCache := run ReadCache.step .new accesses

/-! ## Eviction -/

namespace ReadCache

/-- The lines of all entries. -/
def held (cache : ReadCache) : ℕ := cache.readCache.total fun entry ↦ entry.lines.length

/-- The counter is right. -/
def Balanced (cache : ReadCache) : Prop := cache.readCacheTotalLines = cache.held

/-- An entry of the second is one of the first, which is no smaller. -/
structure Shrinks (cache next : ReadCache) : Prop where
  get_of_get : ∀ absPath entry,
    next.readCache.get absPath = some entry → cache.readCache.get absPath = some entry
  size_le : next.readCache.size ≤ cache.readCache.size
  held_le : next.held ≤ cache.held
  balanced : cache.Balanced → next.Balanced

theorem Shrinks.refl (cache : ReadCache) : cache.Shrinks cache where
  get_of_get _ _ h := h
  size_le := le_refl _
  held_le := le_refl _
  balanced h := h

theorem Shrinks.trans {cache next last : ReadCache} (h : cache.Shrinks next)
    (hnext : next.Shrinks last) : cache.Shrinks last where
  get_of_get absPath entry hentry := h.get_of_get absPath entry (hnext.get_of_get _ _ hentry)
  size_le := hnext.size_le.trans h.size_le
  held_le := hnext.held_le.trans h.held_le
  balanced hbalanced := hnext.balanced (h.balanced hbalanced)

/-- Taking an entry out and its lines off the counter. -/
theorem shrinks_delete {cache : ReadCache} {absPath : List Char} {entry : ReadCacheEntry}
    (hentry : cache.readCache.get absPath = some entry) :
    cache.Shrinks
      ⟨cache.readCache.delete absPath, cache.readCacheTotalLines - entry.lines.length⟩ := by
  have htotal := cache.readCache.total_delete (fun entry ↦ entry.lines.length) absPath
  rw [hentry, Option.map_some, Option.getD_some] at htotal
  constructor
  · intro other stored hstored
    exact (JsMap.get_delete_eq_some_iff.mp hstored).2
  · exact cache.readCache.size_delete_le absPath
  · unfold held
    dsimp only
    omega
  · unfold Balanced held
    intro hbalanced
    dsimp only at hbalanced ⊢
    omega

theorem shrinks_invalidate (cache : ReadCache) (absPath : List Char) :
    cache.Shrinks (cache.invalidate absPath) := by
  rw [invalidate]
  split
  · exact shrinks_delete ‹_›
  · exact Shrinks.refl cache

theorem shrinks_dropOldest (cache : ReadCache) : cache.Shrinks cache.dropOldest := by
  rw [dropOldest]
  split
  · exact Shrinks.refl cache
  · rename_i oldestKey oldest rest hentries
    apply shrinks_delete
    rw [← JsMap.mem_entries_iff, hentries]
    exact List.mem_cons_self

/-- A loop ends with no more than it may hold, or with no entry. -/
theorem evictWhile_spec (isOver : ReadCache → Bool) (cache : ReadCache) :
    cache.Shrinks (cache.evictWhile isOver) ∧
      ((cache.evictWhile isOver).readCache.size = 0 ∨ isOver (cache.evictWhile isOver) = false) := by
  induction cache using evictWhile.induct isOver with
  | case1 cache hover ih =>
    rw [evictWhile, if_pos hover]
    exact ⟨cache.shrinks_dropOldest.trans ih.1, ih.2⟩
  | case2 cache hdone =>
    rw [evictWhile, if_neg hdone]
    refine ⟨Shrinks.refl cache, ?_⟩
    rw [not_and_or, Nat.not_lt, Nat.le_zero, Bool.not_eq_true] at hdone
    exact hdone

/-! ## The books -/

/-- The counter is right, and neither of the bounds is exceeded. -/
structure KeepsBooks (cache : ReadCache) : Prop where
  balanced : cache.readCacheTotalLines = cache.held
  size_le : cache.readCache.size ≤ READ_CACHE_MAX_ENTRIES
  held_le : cache.held ≤ READ_CACHE_MAX_TOTAL_LINES

theorem keepsBooks_new : new.KeepsBooks where
  balanced := rfl
  size_le := Nat.zero_le _
  held_le := Nat.zero_le _

theorem KeepsBooks.shrinks {cache next : ReadCache} (h : cache.KeepsBooks)
    (hnext : cache.Shrinks next) : next.KeepsBooks where
  balanced := hnext.balanced h.balanced
  size_le := hnext.size_le.trans h.size_le
  held_le := hnext.held_le.trans h.held_le

theorem balanced_store {cache : ReadCache} (h : cache.Balanced) (absPath : List Char)
    (entry : ReadCacheEntry) : (cache.store absPath entry).Balanced := by
  have htotal := cache.readCache.total_set (fun entry ↦ entry.lines.length) absPath entry
  unfold Balanced held at h ⊢
  rw [store]
  split
  · rename_i cached hcached
    rw [hcached, Option.map_some, Option.getD_some] at htotal
    dsimp only
    omega
  · rename_i hmissing
    rw [hmissing, Option.map_none, Option.getD_none] at htotal
    dsimp only
    omega

/-- Whatever is stored, the two loops leave no more than is allowed. -/
theorem keepsBooks_evicted {cache : ReadCache} (h : cache.Balanced) :
    ((cache.evictWhile tooManyEntries).evictWhile tooManyLines).KeepsBooks := by
  obtain ⟨hfirst, hentries⟩ := evictWhile_spec tooManyEntries cache
  obtain ⟨hsecond, hlines⟩ := evictWhile_spec tooManyLines (cache.evictWhile tooManyEntries)
  have hbalanced := hsecond.balanced (hfirst.balanced h)
  refine ⟨hbalanced, ?_, ?_⟩
  · apply hsecond.size_le.trans
    rcases hentries with hnone | hfew
    · rw [hnone]
      exact Nat.zero_le _
    · rw [tooManyEntries, decide_eq_false_iff_not, not_lt] at hfew
      exact hfew
  · rcases hlines with hnone | hfew
    · have hnil := List.eq_nil_of_length_eq_zero hnone
      rw [held, JsMap.total, hnil]
      exact Nat.zero_le _
    · rw [tooManyLines, decide_eq_false_iff_not, not_lt, hbalanced, Int.ofNat_le] at hfew
      exact hfew

/-- A refreshed entry is the only one that moves. -/
theorem keepsBooks_refresh {cache : ReadCache} (h : cache.KeepsBooks) {absPath : List Char}
    {entry : ReadCacheEntry} (hentry : cache.readCache.get absPath = some entry) :
    KeepsBooks { cache with readCache := (cache.readCache.delete absPath).set absPath entry } := by
  have hdelete := cache.readCache.total_delete (fun entry ↦ entry.lines.length) absPath
  have hset := (cache.readCache.delete absPath).total_set (fun entry ↦ entry.lines.length)
    absPath entry
  have hsize := cache.readCache.size_delete_lt hentry
  have hgrown := (cache.readCache.delete absPath).size_set absPath entry
  rw [JsMap.get_delete_self] at hset hgrown
  rw [hentry, Option.map_some, Option.getD_some] at hdelete
  rw [Option.map_none, Option.getD_none] at hset
  rw [Option.isSome_none, if_neg Bool.false_ne_true] at hgrown
  obtain ⟨hbalanced, hsizes, hlines⟩ := h
  unfold held at hbalanced hlines
  constructor
  · unfold held
    dsimp only
    omega
  · dsimp only
    omega
  · unfold held
    dsimp only
    omega

/-! ## What a read does -/

/-- The read goes to the disk, and the entry is made of what it finds. -/
def Opens (cache : ReadCache) (absPath : List Char) (disk : OnDisk) (entry : ReadCacheEntry) :
    Prop :=
  ∃ st bytes, disk.stat = some st ∧ st.isFile = true ∧ disk.bytes = some bytes ∧
    cache.hit absPath st = none ∧ entry = ⟨st.mtimeMs, st.size, splitLines bytes⟩

theorem hit_eq_some_iff (cache : ReadCache) (absPath : List Char) (st : FileStat)
    (entry : ReadCacheEntry) : cache.hit absPath st = some entry ↔
      cache.readCache.get absPath = some entry ∧ entry.mtimeMs = st.mtimeMs ∧
        entry.size = st.size := by
  rw [hit]
  split
  · rename_i cached hcached
    rw [hcached, Option.some_inj]
    split
    · rename_i hsame
      constructor
      · intro hentry
        rw [Option.some_inj] at hentry
        exact ⟨hentry, hentry ▸ hsame⟩
      · rintro ⟨rfl, -⟩
        rfl
    · rename_i hother
      refine iff_of_false (Option.some_ne_none entry).symm ?_
      rintro ⟨rfl, hsame⟩
      exact hother hsame
  · rename_i hmissing
    rw [hmissing]
    refine iff_of_false (Option.some_ne_none entry).symm ?_
    rintro ⟨hnone, -⟩
    exact (Option.some_ne_none entry).symm hnone

/-- A read finds no lines and leaves the cache, answers from an entry and makes it the newest, or
stores what it finds on the disk and evicts. -/
theorem readFileLinesCached_cases (cache : ReadCache) (absPath : List Char) (disk : OnDisk) :
    ((∀ lines, (cache.readFileLinesCached absPath disk).1 ≠ .lines lines) ∧
      (cache.readFileLinesCached absPath disk).2 = cache) ∨
    (∃ st cached, disk.stat = some st ∧ cache.hit absPath st = some cached ∧
      cache.readFileLinesCached absPath disk = (.lines cached.lines,
        { cache with readCache := (cache.readCache.delete absPath).set absPath cached })) ∨
    ∃ entry, cache.Opens absPath disk entry ∧
      cache.readFileLinesCached absPath disk = (.lines entry.lines,
        ((cache.store absPath entry).evictWhile tooManyEntries).evictWhile tooManyLines) := by
  rw [readFileLinesCached]
  split
  · exact Or.inl ⟨fun _ ↦ CachedRead.noConfusion, rfl⟩
  · rename_i st hst
    split
    · exact Or.inl ⟨fun _ ↦ CachedRead.noConfusion, rfl⟩
    · rename_i hfile
      rw [Bool.not_eq_false] at hfile
      split
      · rename_i cached hcached
        exact Or.inr (Or.inl ⟨st, cached, hst, hcached, rfl⟩)
      · rename_i hmiss
        split
        · exact Or.inl ⟨fun _ ↦ CachedRead.noConfusion, rfl⟩
        · rename_i bytes hbytes
          exact Or.inr (Or.inr ⟨_, ⟨st, bytes, hst, hfile, hbytes, hmiss, rfl⟩, rfl⟩)

theorem executeRead_snd (cache : ReadCache) (absPath : List Char) (inside : Bool) (disk : OnDisk)
    (range : LineRange) : (executeRead cache absPath inside disk range).2 =
      if inside then (cache.readFileLinesCached absPath disk).2 else cache := by
  rw [executeRead]
  cases inside with
  | false => rfl
  | true =>
    rw [if_neg Bool.noConfusion, if_pos rfl]
    split
    · rename_i hread
      rw [hread]
    · rename_i hread
      rw [hread]
    · rename_i hread
      rw [hread]

/-- Whatever a read finds, the books are right after it. -/
theorem KeepsBooks.read {cache : ReadCache} (h : cache.KeepsBooks) (absPath : List Char)
    (disk : OnDisk) : (cache.readFileLinesCached absPath disk).2.KeepsBooks := by
  rcases cache.readFileLinesCached_cases absPath disk with
    ⟨-, hsame⟩ | ⟨st, cached, -, hhit, hread⟩ | ⟨entry, -, hread⟩
  · rw [hsame]
    exact h
  · rw [hread]
    exact keepsBooks_refresh h ((cache.hit_eq_some_iff absPath st cached).mp hhit).1
  · rw [hread]
    exact keepsBooks_evicted (balanced_store h.balanced absPath entry)

theorem get_invalidate_self (cache : ReadCache) (absPath : List Char) :
    (cache.invalidate absPath).readCache.get absPath = none := by
  rw [invalidate]
  split
  · exact cache.readCache.get_delete_self absPath
  · exact ‹_›

/-- A file without an entry is read from the disk. -/
theorem lines_of_get_eq_none {cache : ReadCache} {absPath : List Char}
    (h : cache.readCache.get absPath = none) {st : FileStat} (hfile : st.isFile = true)
    (bytes : List UInt8) :
    (cache.readFileLinesCached absPath ⟨some st, some bytes⟩).1 = .lines (splitLines bytes) := by
  have hmiss : cache.hit absPath st = none := by
    rw [hit, h]
  rw [readFileLinesCached]
  dsimp only
  rw [hfile, if_neg Bool.noConfusion, hmiss]

theorem step_write {target : Target} {call : FileCall}
    (h : wrote (executeToolCall target call) = true) (cache : ReadCache) (absPath : List Char) :
    cache.step (.write absPath target call) = cache.invalidate absPath := by
  rw [step, if_pos h]

theorem KeepsBooks.step {cache : ReadCache} (access : Access) (h : cache.KeepsBooks) :
    (cache.step access).KeepsBooks := by
  cases access with
  | read absPath inside disk range =>
    rw [ReadCache.step, executeRead_snd]
    split
    · exact h.read absPath disk
    · exact h
  | write absPath target call =>
    rw [ReadCache.step]
    split
    · exact h.shrinks (cache.shrinks_invalidate absPath)
    · exact h

theorem keepsBooks_after (accesses : List Access) : (after accesses).KeepsBooks :=
  run_preserves (fun _ access h ↦ h.step access) keepsBooks_new accesses

/-! ## Where entries come from -/

/-- An entry that is there after a step was there before, or the step has read it from the disk. -/
theorem get_step {cache : ReadCache} {access : Access} {absPath : List Char}
    {entry : ReadCacheEntry} (h : (cache.step access).readCache.get absPath = some entry) :
    cache.readCache.get absPath = some entry ∨
      ∃ disk range, access = .read absPath true disk range ∧ cache.Opens absPath disk entry := by
  cases access with
  | write other target call =>
    rw [step] at h
    split at h
    · exact Or.inl ((cache.shrinks_invalidate other).get_of_get absPath entry h)
    · exact Or.inl h
  | read other inside disk range =>
    rw [step, executeRead_snd] at h
    split at h
    · rename_i hinside
      rcases cache.readFileLinesCached_cases other disk with
        ⟨-, hsame⟩ | ⟨st, cached, -, hhit, hread⟩ | ⟨found, hopens, hread⟩
      · rw [hsame] at h
        exact Or.inl h
      · have hcached := ((cache.hit_eq_some_iff other st cached).mp hhit).1
        rw [hread] at h
        dsimp only at h
        rw [JsMap.get_set] at h
        by_cases hother : absPath = other
        · rw [if_pos hother] at h
          rw [hother, hcached]
          exact Or.inl h
        · rw [if_neg hother, JsMap.get_delete_of_ne _ hother] at h
          exact Or.inl h
      · rw [hread] at h
        have hstored := (evictWhile_spec tooManyEntries _).1.get_of_get absPath entry
          ((evictWhile_spec tooManyLines _).1.get_of_get absPath entry h)
        rw [store, JsMap.get_set] at hstored
        by_cases hother : absPath = other
        · rw [if_pos hother, Option.some_inj] at hstored
          subst hother hstored hinside
          exact Or.inr ⟨disk, range, rfl, hopens⟩
        · rw [if_neg hother] at hstored
          exact Or.inl hstored
    · exact Or.inl h

/-- A read of the run has made the entry of what it found on the disk, and the path has had this
entry at every moment since. -/
def StoredBy (accesses : List Access) (absPath : List Char) (entry : ReadCacheEntry) : Prop :=
  ∃ earlier disk range later, accesses = earlier ++ .read absPath true disk range :: later ∧
    (after earlier).Opens absPath disk entry ∧
      ∀ before, before <+: later →
        (after (earlier ++ .read absPath true disk range :: before)).readCache.get absPath =
          some entry

theorem storedBy_of_get {accesses : List Access} {absPath : List Char} {entry : ReadCacheEntry}
    (h : (after accesses).readCache.get absPath = some entry) :
    StoredBy accesses absPath entry := by
  induction accesses using List.reverseRecOn with
  | nil => cases h
  | append_singleton accesses access ih =>
    have hstep := h
    rw [after, run, List.foldl_concat] at hstep
    rcases get_step hstep with hkept | ⟨disk, range, rfl, hopens⟩
    · obtain ⟨earlier, disk, range, later, rfl, hopens, hsince⟩ := ih hkept
      refine ⟨earlier, disk, range, later ++ [access], by simp, hopens, ?_⟩
      intro before hbefore
      rcases List.prefix_concat_iff.mp hbefore with rfl | hbefore
      · rw [List.append_assoc, List.cons_append] at h
        exact h
      · exact hsince before hbefore
    · refine ⟨accesses, disk, range, [], rfl, hopens, ?_⟩
      intro before hbefore
      rw [List.prefix_nil.mp hbefore]
      exact h

end ReadCache

/-! ## What reads answer -/

/-- The lines are those of an entry with the time and the size that the file has. The read itself
has made the entry of the content of the disk, or an earlier read has and it is still held. -/
def TellsStored (accesses : List Access) (absPath : List Char) (disk : OnDisk)
    (lines : List (List Char)) : Prop :=
  ∃ st entry, disk.stat = some st ∧ entry.mtimeMs = st.mtimeMs ∧ entry.size = st.size ∧
    entry.lines = lines ∧
      ((ReadCache.after accesses).Opens absPath disk entry ∨
        (ReadCache.after accesses).hit absPath st = some entry ∧
          ReadCache.StoredBy accesses absPath entry)

theorem tellsStored_of_lines {accesses : List Access} {absPath : List Char} {disk : OnDisk}
    {lines : List (List Char)}
    (h : ((ReadCache.after accesses).readFileLinesCached absPath disk).1 = .lines lines) :
    TellsStored accesses absPath disk lines := by
  rcases (ReadCache.after accesses).readFileLinesCached_cases absPath disk with
    ⟨hnone, -⟩ | ⟨st, cached, hst, hhit, hread⟩ | ⟨entry, hopens, hread⟩
  · exact absurd h (hnone lines)
  · have hcached := (ReadCache.hit_eq_some_iff _ absPath st cached).mp hhit
    rw [hread] at h
    exact ⟨st, cached, hst, hcached.2.1, hcached.2.2, CachedRead.lines.inj h,
      Or.inr ⟨hhit, ReadCache.storedBy_of_get hcached.1⟩⟩
  · rw [hread] at h
    have hfound := hopens
    obtain ⟨st, bytes, hst, -, -, -, rfl⟩ := hfound
    exact ⟨st, _, hst, rfl, rfl, CachedRead.lines.inj h, Or.inl hopens⟩

theorem after_keepsBooks_and_tellsStored (accesses : List Access) :
    (ReadCache.after accesses).KeepsBooks ∧
      ∀ absPath disk lines,
        ((ReadCache.after accesses).readFileLinesCached absPath disk).1 = .lines lines →
          TellsStored accesses absPath disk lines :=
  ⟨ReadCache.keepsBooks_after accesses, fun _ _ _ ↦ tellsStored_of_lines⟩

/-- If a file has never had another content with the time and the size it has, a read answers with
what is on the disk. -/
theorem lines_of_stamped {accesses : List Access} {absPath : List Char} {disk : OnDisk}
    {lines : List (List Char)}
    (hstamped : ∀ earlier range, Access.read absPath true earlier range ∈ accesses →
      ∀ st other, disk.stat = some st → earlier.stat = some other →
        other.mtimeMs = st.mtimeMs → other.size = st.size → earlier.bytes = disk.bytes)
    (h : ((ReadCache.after accesses).readFileLinesCached absPath disk).1 = .lines lines) :
    ∃ bytes, disk.bytes = some bytes ∧ lines = splitLines bytes := by
  obtain ⟨st, entry, hst, htime, hsize, rfl, hopens | ⟨-, hstored⟩⟩ := tellsStored_of_lines h
  · obtain ⟨_, bytes, -, -, hbytes, -, rfl⟩ := hopens
    exact ⟨bytes, hbytes, rfl⟩
  · obtain ⟨earlier, found, range, later, rfl, ⟨other, bytes, hother, -, hbytes, -, rfl⟩, -⟩ :=
      hstored
    have hmem : Access.read absPath true found range ∈
        earlier ++ .read absPath true found range :: later :=
      List.mem_append_right _ List.mem_cons_self
    exact ⟨bytes, (hstamped found range hmem st other hst hother htime hsize) ▸ hbytes, rfl⟩

theorem lines_of_stamped_again : ∃ bytes, some [97] = some bytes ∧ [['a']] = splitLines bytes :=
  let disk : OnDisk := ⟨some ⟨true, 0, 1⟩, some [97]⟩
  @lines_of_stamped [.read ['f'] true disk ⟨none, none⟩] ['f'] disk [['a']]
    (fun _ _ hread _ _ _ _ _ _ ↦ by cases hread with | head => rfl | tail _ hnone => cases hnone)
    (by decide +kernel)

/-! ## A content that is seen again -/

/-- What a read with the time and the size of `st` has found. -/
def Access.sees (absPath : List Char) (st : FileStat) : Access → Option (List UInt8)
  | .read other true disk _ =>
    match disk.stat with
    | some seen =>
      if other = absPath ∧ seen.mtimeMs = st.mtimeMs ∧ seen.size = st.size then disk.bytes
      else none
    | none => none
  | _ => none

/-- What is answered was on the disk when the time and the size of the file were first seen. -/
def TellsFirstSeen (accesses : List Access) (absPath : List Char) (disk : OnDisk)
    (lines : List (List Char)) : Prop :=
  ∀ st bytes, disk.stat = some st →
    (accesses.findSome? (Access.sees absPath st)).or disk.bytes = some bytes →
      lines = splitLines bytes

/-- A read of a file, and an edit of it that leaves its time and its size. -/
def editedInPlace : List Access :=
  [.read ['f'] true ⟨some ⟨true, 0, 1⟩, some [97]⟩ ⟨none, none⟩,
    .write ['f'] ⟨true, .content [97], true⟩ (.edit ['f'] ⟨['a'], ['b']⟩)]

theorem not_tellsFirstSeen : ¬∀ accesses : List Access,
    (ReadCache.after accesses).KeepsBooks ∧
      ∀ absPath disk lines,
        ((ReadCache.after accesses).readFileLinesCached absPath disk).1 = .lines lines →
          TellsFirstSeen accesses absPath disk lines := by
  intro h
  have hmissing : (ReadCache.after editedInPlace).readCache.get ['f'] = none := by
    have hwrote : wrote (executeToolCall ⟨true, .content [97], true⟩
        (.edit ['f'] ⟨['a'], ['b']⟩)) = true := by
      decide +kernel
    simp only [ReadCache.after, run, editedInPlace, List.foldl_cons, List.foldl_nil]
    rw [ReadCache.step_write hwrote]
    exact ReadCache.get_invalidate_self _ ['f']
  have hlines := (h editedInPlace).2 ['f'] ⟨some ⟨true, 0, 1⟩, some [98]⟩ (splitLines [98])
    (ReadCache.lines_of_get_eq_none hmissing rfl [98])
  have hfirst : splitLines [98] = splitLines [97] := hlines ⟨true, 0, 1⟩ [97] rfl rfl
  have hother : splitLines [98] ≠ splitLines [97] := by
    decide +kernel
  exact hother hfirst

end Flockctl.FileEdits
