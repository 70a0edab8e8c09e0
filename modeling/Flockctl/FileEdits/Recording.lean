import Flockctl.FileEdits.Journal

/-!
# What the journal records of a call

The edit tools of `getAgentTools` read `path`, `oldString` and `newString`; the tools of the SDK are
called with `file_path` or `path`, and with `old_string` and `new_string` or `old_str` and
`new_str`. The journal reads the spellings of the SDK only, when a call is announced and before it
is known what comes of it.
-/

namespace Flockctl.FileEdits

open Collections Encoding

/-- How an input names the path of the file. -/
inductive PathKey
  | filePath
  | path
  deriving DecidableEq

def PathKey.text : PathKey → List Char
  | .filePath => "file_path".toList
  | .path => "path".toList

/-- How an input of the SDK names the two texts of an edit. -/
inductive TextKeys
  | string
  | str
  deriving DecidableEq

/-- The spelling that `getAgentTools` declares, and those of the tools of the SDK. -/
inductive Spelling
  | declared
  | sdk (pathKey : PathKey) (textKeys : TextKeys)
  deriving DecidableEq

namespace Spelling

def pathKey : Spelling → List Char
  | declared => "path".toList
  | sdk pathKey _ => pathKey.text

def oldKey : Spelling → List Char
  | declared => "oldString".toList
  | sdk _ .string => "old_string".toList
  | sdk _ .str => "old_str".toList

def newKey : Spelling → List Char
  | declared => "newString".toList
  | sdk _ .string => "new_string".toList
  | sdk _ .str => "new_str".toList

/-- The two texts of an edit as members of an object. -/
def texts (spelling : Spelling) (edit : Replacement) : List (List Char × Json) :=
  [(spelling.oldKey, .string edit.oldString), (spelling.newKey, .string edit.newString)]

end Spelling

inductive FileCall
  | edit (path : List Char) (replacement : Replacement)
  | multiEdit (path : List Char) (edits : List Replacement)
  | write (path : List Char) (content : List Char)
  deriving DecidableEq

namespace FileCall

def name : FileCall → List Char
  | edit _ _ => "Edit".toList
  | multiEdit _ _ => "MultiEdit".toList
  | write _ _ => "Write".toList

def path : FileCall → List Char
  | edit path _ => path
  | multiEdit path _ => path
  | write path _ => path

/-- The input of a call. -/
def input (spelling : Spelling) : FileCall → Json
  | edit path replacement =>
    .object ((spelling.pathKey, .string path) :: spelling.texts replacement)
  | multiEdit path edits =>
    .object [(spelling.pathKey, .string path),
      ("edits".toList, .array (edits.map (.object <| spelling.texts ·)))]
  | write path content =>
    .object [(spelling.pathKey, .string path), ("content".toList, .string content)]

/-- The replacements a call asks for. A `Write` counts as one of nothing by its content. -/
def requested : FileCall → List JournalEntry
  | edit path replacement => [⟨path, replacement.oldString, replacement.newString⟩]
  | multiEdit path edits =>
    edits.map fun replacement ↦ ⟨path, replacement.oldString, replacement.newString⟩
  | write path content => [⟨path, [], content⟩]

end FileCall

/-- What is at the path of a call. -/
inductive FileAtPath
  | missing
  | unreadable
  | content (bytes : List UInt8)

/-- The path of a call: whether it is inside the working directory, what is there, and whether it
can be written. -/
structure Target where
  inside : Bool
  file : FileAtPath
  writable : Bool

inductive ToolOutput
  | edit (output : EditOutput)
  | multiEdit (output : MultiEditOutput)
  | written
  deriving DecidableEq

/-- `executeToolCall` on the three tools; `none` is a call that throws. -/
def executeToolCall (target : Target) (call : FileCall) : Option ToolOutput :=
  if target.inside = false then none
  else
    match call, target.file with
    | .write _ _, _ => if target.writable then some .written else none
    | .edit _ _, .missing => some (.edit .fileNotFound)
    | .multiEdit _ _, .missing => some (.multiEdit .fileNotFound)
    | _, .unreadable => none
    | .edit _ replacement, .content bytes =>
      match (executeEdit (some bytes) replacement).1 with
      | .edited => if target.writable then some (.edit .edited) else none
      | output => some (.edit output)
    | .multiEdit _ edits, .content bytes =>
      if target.writable then
        some (.multiEdit (executeMultiEdit (some bytes) (edits.map some)).1)
      else none

/-- Where a call is run: the tools of this program on a file, or those of the SDK, of which it is
only given which replacements they make. -/
structure Execution where
  target : Target
  sdkMakes : FileCall → ℕ → Bool

/-- Whether the tool makes the replacement at a place of those asked for. -/
def Execution.makes (execution : Execution) (spelling : Spelling) (call : FileCall) (n : ℕ) :
    Bool :=
  match spelling with
  | .sdk _ _ => execution.sdkMakes call n
  | .declared =>
    match executeToolCall execution.target call with
    | none => false
    | some .written => true
    | some (.edit output) => output == .edited
    | some (.multiEdit .fileNotFound) => false
    | some (.multiEdit (.tried results)) => results[n]? == some .made

/-- The replacements a call has made, in order. -/
def Execution.applied (execution : Execution) (spelling : Spelling) (call : FileCall) :
    List JournalEntry :=
  (call.requested.zipIdx.filter fun entry ↦ execution.makes spelling call entry.2).map Prod.fst

/-- The listener of `tool_call`. -/
def onToolCall (journal : FileEditJournal) (name : List Char) (input : Json) : FileEditJournal :=
  let newEntries := buildEntriesFromToolCall name input
  if newEntries.length > 0 then ⟨journal.entries ++ newEntries⟩ else journal

/-- A call yields one entry for every replacement it asks for, and what the journal keeps are
replacements that were made. -/
structure IsRecorded (execution : Execution) (spelling : Spelling) (call : FileCall) : Prop where
  complete : buildEntriesFromToolCall call.name (call.input spelling) = call.requested
  genuine : ∀ journal : FileEditJournal, ∃ kept : List JournalEntry,
    (onToolCall journal call.name (call.input spelling)).entries = journal.entries ++ kept ∧
      kept.Sublist (execution.applied spelling call)

/-- Nothing is asked for; or the path is not empty, the journal reads the spelling, and the tool
makes every replacement. -/
def RecordsAll (execution : Execution) (spelling : Spelling) (call : FileCall) : Prop :=
  call.requested = [] ∨
    call.path ≠ [] ∧ (spelling = .declared → ∃ path content, call = .write path content) ∧
      ∀ n < call.requested.length, execution.makes spelling call n = true

/-- What the readers of the journal find in the input of a call. -/
theorem pickPath_input (spelling : Spelling) (call : FileCall) :
    pickPath (call.input spelling) = call.path := by
  rcases spelling with _ | ⟨_ | _, _ | _⟩ <;> cases call <;> rfl

theorem pickOldNew_texts_declared (replacement : Replacement) :
    pickOldNew (.object (Spelling.texts .declared replacement)) = none := rfl

theorem pickOldNew_texts_sdk (pathKey : PathKey) (textKeys : TextKeys)
    (replacement : Replacement) :
    pickOldNew (.object ((Spelling.sdk pathKey textKeys).texts replacement)) =
      some (replacement.oldString, replacement.newString) := by
  cases textKeys <;> rfl

theorem isObject_input (spelling : Spelling) (call : FileCall) :
    (call.input spelling).isObject = true := by
  cases call <;> rfl

theorem buildEntries_of_emptyPath {call : FileCall} (h : call.path = []) (spelling : Spelling) :
    buildEntriesFromToolCall call.name (call.input spelling) = [] := by
  simp only [buildEntriesFromToolCall, isObject_input, pickPath_input, h, if_true,
    Bool.true_eq_false, if_false]

/-- An edit yields what the reader of its two texts finds. -/
theorem buildEntries_edit {path : List Char} (hpath : path ≠ []) (spelling : Spelling)
    (replacement : Replacement) :
    buildEntriesFromToolCall (FileCall.edit path replacement).name
        ((FileCall.edit path replacement).input spelling) =
      (pickOldNew (.object (spelling.texts replacement))).toList.map
        fun swap ↦ ⟨path, swap.1, swap.2⟩ := by
  have hedits : ((FileCall.edit path replacement).input spelling).property "edits".toList =
      none := by
    rcases spelling with _ | ⟨_ | _, _ | _⟩ <;> rfl
  have hcontent : textProperty ((FileCall.edit path replacement).input spelling)
      "content".toList = none := by
    rcases spelling with _ | ⟨_ | _, _ | _⟩ <;> rfl
  have htexts : pickOldNew ((FileCall.edit path replacement).input spelling) =
      pickOldNew (.object (spelling.texts replacement)) := by
    rcases spelling with _ | ⟨_ | _, _ | _⟩ <;> rfl
  have hsame : (FileCall.edit path replacement).path = path := rfl
  simp only [buildEntriesFromToolCall, isObject_input, pickPath_input, hsame, hpath, if_false,
    Bool.true_eq_false, htexts, hedits, hcontent]
  cases pickOldNew (.object (spelling.texts replacement)) <;> rfl

/-- So does each edit of a `MultiEdit`. -/
theorem buildEntries_multiEdit {path : List Char} (hpath : path ≠ []) (spelling : Spelling)
    (edits : List Replacement) :
    buildEntriesFromToolCall (FileCall.multiEdit path edits).name
        ((FileCall.multiEdit path edits).input spelling) =
      edits.filterMap fun replacement ↦
        (pickOldNew (.object (spelling.texts replacement))).map fun swap ↦
          ⟨path, swap.1, swap.2⟩ := by
  have hedits : ((FileCall.multiEdit path edits).input spelling).property "edits".toList =
      some (.array (edits.map (.object <| spelling.texts ·))) := by
    rcases spelling with _ | ⟨_ | _, _ | _⟩ <;> rfl
  have htexts : pickOldNew ((FileCall.multiEdit path edits).input spelling) = none := by
    rcases spelling with _ | ⟨_ | _, _ | _⟩ <;> rfl
  have hsame : (FileCall.multiEdit path edits).path = path := rfl
  simp only [buildEntriesFromToolCall, isObject_input, pickPath_input, hsame, hpath, if_false,
    Bool.true_eq_false, htexts, hedits, List.filterMap_map, Function.comp_def]

theorem buildEntries_write {path : List Char} (hpath : path ≠ []) (spelling : Spelling)
    (content : List Char) :
    buildEntriesFromToolCall (FileCall.write path content).name
      ((FileCall.write path content).input spelling) = [⟨path, [], content⟩] := by
  have hedits : ((FileCall.write path content).input spelling).property "edits".toList =
      none := by
    rcases spelling with _ | ⟨_ | _, _ | _⟩ <;> rfl
  have hcontent : textProperty ((FileCall.write path content).input spelling)
      "content".toList = some content := by
    rcases spelling with _ | ⟨_ | _, _ | _⟩ <;> rfl
  have htexts : pickOldNew ((FileCall.write path content).input spelling) = none := by
    rcases spelling with _ | ⟨_ | _, _ | _⟩ <;> rfl
  have hname : (FileCall.write path content).name.map Char.toLower = "write".toList := rfl
  have hsame : (FileCall.write path content).path = path := rfl
  simp only [buildEntriesFromToolCall, isObject_input, pickPath_input, hsame, hpath, if_false,
    Bool.true_eq_false, htexts, hedits, hcontent, hname, true_or, if_true]

/-- In a spelling of the SDK a call yields what it asks for. -/
theorem buildEntries_sdk {call : FileCall} (hpath : call.path ≠ []) (pathKey : PathKey)
    (textKeys : TextKeys) :
    buildEntriesFromToolCall call.name (call.input (.sdk pathKey textKeys)) = call.requested := by
  cases call with
  | edit path replacement =>
    dsimp only [FileCall.path] at hpath
    rw [buildEntries_edit hpath, pickOldNew_texts_sdk]
    rfl
  | multiEdit path edits =>
    dsimp only [FileCall.path] at hpath
    rw [buildEntries_multiEdit hpath]
    simp only [pickOldNew_texts_sdk, Option.map_some, FileCall.requested]
    exact congrFun List.filterMap_eq_map' edits
  | write path content => exact buildEntries_write hpath _ content

/-- In the declared spelling only a `Write` yields anything. -/
theorem buildEntries_declared {call : FileCall}
    (h : ∀ path content, call ≠ .write path content) :
    buildEntriesFromToolCall call.name (call.input .declared) = [] := by
  by_cases hpath : call.path = []
  · exact buildEntries_of_emptyPath hpath .declared
  · cases call with
    | edit path replacement =>
      dsimp only [FileCall.path] at hpath
      rw [buildEntries_edit hpath, pickOldNew_texts_declared]
      rfl
    | multiEdit path edits =>
      dsimp only [FileCall.path] at hpath
      rw [buildEntries_multiEdit hpath]
      simp only [pickOldNew_texts_declared, Option.map_none, List.filterMap_none]
    | write path content => exact absurd rfl (h path content)

theorem buildEntries_of_nothingRequested {call : FileCall} (h : call.requested = [])
    (spelling : Spelling) : buildEntriesFromToolCall call.name (call.input spelling) = [] := by
  by_cases hpath : call.path = []
  · exact buildEntries_of_emptyPath hpath spelling
  · cases call with
    | edit path replacement => cases h
    | multiEdit path edits =>
      dsimp only [FileCall.path] at hpath
      rw [buildEntries_multiEdit hpath, List.map_eq_nil_iff.mp h, List.filterMap_nil]
    | write path content => cases h

theorem complete_iff (spelling : Spelling) (call : FileCall) :
    buildEntriesFromToolCall call.name (call.input spelling) = call.requested ↔
      call.requested = [] ∨ call.path ≠ [] ∧
        (spelling = .declared → ∃ path content, call = .write path content) := by
  constructor
  · intro h
    by_cases hnone : call.requested = []
    · exact Or.inl hnone
    · right
      constructor
      · intro hpath
        rw [buildEntries_of_emptyPath hpath] at h
        exact hnone h.symm
      · rintro rfl
        by_contra hwrite
        push Not at hwrite
        rw [buildEntries_declared hwrite] at h
        exact hnone h.symm
  · rintro (hnone | ⟨hpath, hwrite⟩)
    · rw [buildEntries_of_nothingRequested hnone, hnone]
    · cases spelling with
      | declared =>
        obtain ⟨path, content, rfl⟩ := hwrite rfl
        exact buildEntries_write hpath _ content
      | sdk pathKey textKeys => exact buildEntries_sdk hpath pathKey textKeys

theorem onToolCall_entries (journal : FileEditJournal) (name : List Char) (input : Json) :
    (onToolCall journal name input).entries =
      journal.entries ++ buildEntriesFromToolCall name input := by
  rw [onToolCall]
  split_ifs with hsome
  · rfl
  · have hnil : buildEntriesFromToolCall name input = [] :=
      List.eq_nil_of_length_eq_zero (Nat.eq_zero_of_not_pos hsome)
    rw [hnil, List.append_nil]

/-- All replacements that are asked for are among those made exactly when each of them is made. -/
theorem sublist_applied_iff (execution : Execution) (spelling : Spelling) (call : FileCall) :
    call.requested.Sublist (execution.applied spelling call) ↔
      ∀ n < call.requested.length, execution.makes spelling call n = true := by
  constructor
  · intro h n hn
    have hlength := h.length_le
    rw [Execution.applied, List.length_map] at hlength
    have hall : call.requested.zipIdx.filter (fun entry ↦ execution.makes spelling call entry.2) =
        call.requested.zipIdx := by
      apply List.filter_sublist.eq_of_length_le
      rwa [List.length_zipIdx]
    rw [List.filter_eq_self] at hall
    exact hall (call.requested[n], n) (List.mk_mem_zipIdx_iff_getElem?.mpr
      (List.getElem?_eq_getElem hn))
  · intro h
    have hall : call.requested.zipIdx.filter (fun entry ↦ execution.makes spelling call entry.2) =
        call.requested.zipIdx := by
      rw [List.filter_eq_self]
      rintro ⟨entry, n⟩ hmem
      rw [List.mk_mem_zipIdx_iff_getElem?] at hmem
      exact h n (List.getElem?_eq_some_iff.mp hmem).1
    rw [Execution.applied, hall, List.zipIdx_map_fst]

/-- A call is recorded as it is made exactly when it asks for nothing, or its path is not empty, it
is a `Write` or in a spelling of the SDK, and every replacement is made. -/
theorem isRecorded_iff (execution : Execution) (spelling : Spelling) (call : FileCall) :
    IsRecorded execution spelling call ↔ RecordsAll execution spelling call := by
  rw [RecordsAll, ← and_assoc]
  constructor
  · intro h
    rcases (complete_iff spelling call).mp h.complete with hnone | hread
    · exact Or.inl hnone
    · obtain ⟨kept, hkept, hsublist⟩ := h.genuine ⟨[]⟩
      rw [onToolCall_entries, h.complete, List.nil_append, List.nil_append] at hkept
      rw [← hkept] at hsublist
      exact Or.inr ⟨hread, (sublist_applied_iff execution spelling call).mp hsublist⟩
  · intro h
    have hcomplete : buildEntriesFromToolCall call.name (call.input spelling) = call.requested :=
      (complete_iff spelling call).mpr (h.imp_right And.left)
    refine ⟨hcomplete, fun journal ↦ ⟨call.requested, ?_, ?_⟩⟩
    · rw [onToolCall_entries, hcomplete]
    · rcases h with hnone | ⟨-, hmade⟩
      · rw [hnone]
        exact List.nil_sublist _
      · exact (sublist_applied_iff execution spelling call).mpr hmade

/-- An `Edit` in the declared spelling that is made, but not recorded. -/
theorem not_isRecorded : ¬ ∀ execution spelling call, IsRecorded execution spelling call := by
  intro h
  have hcomplete := (h ⟨⟨true, .content [97], true⟩, fun _ _ ↦ true⟩ .declared
    (.edit ['f'] ⟨['a'], ['b']⟩)).complete
  rw [buildEntries_declared (by simp)] at hcomplete
  cases hcomplete

end Flockctl.FileEdits
