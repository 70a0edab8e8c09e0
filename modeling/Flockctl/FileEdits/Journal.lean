import Flockctl.Collections.Occurrences
import Flockctl.Encoding.Json
import Flockctl.Encoding.Utf8
import Flockctl.TaskExecutor.Sessions

/-!
# The file-edit journal

What the edits of a session's tool calls leave behind: entries with the text before and after each
edit, kept in order. The journal is stored as JSON in a column of the task; parsing what was
serialised gives the journal back.
-/

namespace Flockctl.FileEdits

open Collections Encoding

structure JournalEntry where
  filePath : List Char
  original : List Char
  current : List Char
deriving DecidableEq

structure FileEditJournal where
  entries : List JournalEntry
deriving DecidableEq

/-- `typeof value.name === "string"`, and the string. -/
def textProperty (value : Json) (name : List Char) : Option (List Char) :=
  match value.property name with
  | some (.string text) => some text
  | _ => none

/-- `isEntry(x)`, and the entry. -/
def toEntry (x : Json) : Option JournalEntry :=
  match textProperty x "filePath".toList, textProperty x "original".toList,
      textProperty x "current".toList with
  | some filePath, some original, some current => some ⟨filePath, original, current⟩
  | _, _, _ => none

/-- `parseJournal(raw)`; `none` is a column that is null or holds no JSON. -/
def parseJournal (raw : Option Json) : FileEditJournal :=
  match raw with
  | none => ⟨[]⟩
  | some obj =>
      match obj.property "entries".toList with
      | some (.array items) => ⟨items.filterMap toEntry⟩
      | _ => ⟨[]⟩

def JournalEntry.toJson (entry : JournalEntry) : Json :=
  .object [("filePath".toList, .string entry.filePath),
    ("original".toList, .string entry.original), ("current".toList, .string entry.current)]

/-- `serializeJournal(j)`. -/
def serializeJournal (j : FileEditJournal) : Json :=
  .object [("entries".toList, .array (j.entries.map JournalEntry.toJson))]

theorem toEntry_toJson (entry : JournalEntry) : toEntry entry.toJson = some entry := rfl

/-- Parsing what was serialised gives the journal back. -/
theorem parseJournal_serializeJournal (j : FileEditJournal) :
    parseJournal (some (serializeJournal j)) = j := by
  have hproperty : (serializeJournal j).property "entries".toList =
      some (.array (j.entries.map JournalEntry.toJson)) := rfl
  have hentries : (j.entries.map JournalEntry.toJson).filterMap toEntry = j.entries := by
    rw [List.filterMap_map]
    calc
      j.entries.filterMap (toEntry ∘ JournalEntry.toJson) = j.entries.filterMap some :=
        List.filterMap_congr fun entry _ ↦ toEntry_toJson entry
      _ = j.entries := List.filterMap_some
  simp only [parseJournal, hproperty, hentries]

/-- What `finalizeSuccess` writes into the column. -/
def fileEditsColumn (journal : FileEditJournal) : Option Json :=
  if journal.entries.length > 0 then some (serializeJournal journal) else none

/-- Either way the column holds the journal. -/
theorem parseJournal_fileEditsColumn (journal : FileEditJournal) :
    parseJournal (fileEditsColumn journal) = journal := by
  unfold fileEditsColumn
  split
  · exact parseJournal_serializeJournal journal
  · rename_i hempty
    have hnil : journal.entries = [] :=
      List.eq_nil_of_length_eq_zero (Nat.eq_zero_of_not_pos hempty)
    calc
      parseJournal none = ⟨[]⟩ := rfl
      _ = ⟨journal.entries⟩ := by rw [hnil]

/-- `pickPath(obj)`. -/
def pickPath (obj : Json) : List Char :=
  match textProperty obj "file_path".toList with
  | some filePath => filePath
  | none => (textProperty obj "path".toList).getD []

/-- `pickOldNew(obj)`, where both texts are there. -/
def pickOldNew (obj : Json) : Option (List Char × List Char) :=
  match (textProperty obj "old_string".toList).orElse fun _ ↦ textProperty obj "old_str".toList,
      (textProperty obj "new_string".toList).orElse fun _ ↦ textProperty obj "new_str".toList with
  | some oldString, some newString => some (oldString, newString)
  | _, _ => none

/-- `buildEntriesFromToolCall(name, input)`. Lowering the letters of the ASCII range is enough for
the two names compared, since no other character has one of theirs as its lower case. -/
def buildEntriesFromToolCall (name : List Char) (input : Json) : List JournalEntry :=
  if input.isObject = false then []
  else
    let filePath := pickPath input
    if filePath = [] then []
    else
      let lowered := name.map Char.toLower
      match pickOldNew input with
      | some (oldString, newString) => [⟨filePath, oldString, newString⟩]
      | none =>
          match input.property "edits".toList with
          | some (.array edits) => edits.filterMap fun raw ↦
              (pickOldNew raw).map fun swap ↦ ⟨filePath, swap.1, swap.2⟩
          | _ =>
              match textProperty input "content".toList with
              | some content =>
                  if lowered = "write".toList ∨ lowered = "create_file".toList then
                    [⟨filePath, [], content⟩]
                  else []
              | none => []

end Flockctl.FileEdits

/-!
# The Edit and MultiEdit tools

`Edit` replaces a text that is found in a file and not found again behind its first occurrence.
`MultiEdit` tries its edits one after the other on the content of the file, goes on after one that
is refused, and writes what it has.

The path is inside the working directory, and its file is read and written as UTF-8.
-/

namespace Flockctl.FileEdits

open Collections Encoding

/-- An edit of a call. -/
structure Replacement where
  oldString : List Char
  newString : List Char
  deriving DecidableEq

/-- Why an edit is refused. -/
inductive Refusal
  | notFound
  | notUnique (count : ℤ)
  deriving DecidableEq

/-- The test both tools make, and the content with the edit made. -/
def tryEdit (content : List Char) (edit : Replacement) : Except Refusal (List Char) :=
  match indexOf content edit.oldString 0 with
  | none => .error .notFound
  | some firstAt =>
    match indexOf content edit.oldString (firstAt + edit.oldString.length) with
    | some _ => .error (.notUnique (splitCount content edit.oldString))
    | none => .ok (replaceFirst content edit.oldString edit.newString)

/-- What `Edit` answers. -/
inductive EditOutput
  | fileNotFound
  | refused (refusal : Refusal)
  | edited
  deriving DecidableEq

/-- `Edit` on a file, which may be missing: the answer and the file afterwards. -/
def executeEdit (file : Option (List UInt8)) (edit : Replacement) :
    EditOutput × Option (List UInt8) :=
  match file with
  | none => (.fileNotFound, none)
  | some bytes =>
    match tryEdit (decode bytes) edit with
    | .error refusal => (.refused refusal, some bytes)
    | .ok content => (.edited, some (encode content))

/-- What an element of `edits` comes to; one that is null is no edit. -/
inductive EditResult
  | absent
  | refused (refusal : Refusal)
  | made
  deriving DecidableEq

/-- The edits of a `MultiEdit` on a content: what they leave, and what each of them comes to. -/
def tryEdits : List Char → List (Option Replacement) → List Char × List EditResult
  | content, [] => (content, [])
  | content, none :: rest =>
    let (last, results) := tryEdits content rest
    (last, .absent :: results)
  | content, some edit :: rest =>
    match tryEdit content edit with
    | .error refusal =>
      let (last, results) := tryEdits content rest
      (last, .refused refusal :: results)
    | .ok next =>
      let (last, results) := tryEdits next rest
      (last, .made :: results)

/-- What `MultiEdit` answers. -/
inductive MultiEditOutput
  | fileNotFound
  | tried (results : List EditResult)
  deriving DecidableEq

/-- `MultiEdit` on a file. -/
def executeMultiEdit (file : Option (List UInt8)) (edits : List (Option Replacement)) :
    MultiEditOutput × Option (List UInt8) :=
  match file with
  | none => (.fileNotFound, none)
  | some bytes =>
    let (content, results) := tryEdits (decode bytes) edits
    (.tried results, some (encode content))

end Flockctl.FileEdits

/-!
# The daemon with its file-edit journals

Every call of `execute` that is inside `_run` carries a journal: it is parsed from the row as the
run starts, before the context is built, and the tool calls of the session append to it. The row
gets it back from `finalizeSuccess` and from nothing else. Beside the state stand what the tool
calls of each task have yielded so far, and the tasks one of whose sessions has ended with edits
that its row does not hold.
-/

namespace Flockctl.FileEdits

open Collections Encoding Ai Tasks TaskExecutor

structure JournalDaemon where
  daemon : Daemon
  /-- the column `file_edits` of the rows -/
  fileEdits : TaskId → Option Json
  /-- the journal of each call, in the order of the calls; outside `_run` an empty one -/
  journals : List FileEditJournal := []
  /-- what `buildEntriesFromToolCall` has yielded for the tool calls of a task, oldest first -/
  emitted : TaskId → List JournalEntry
  /-- the tasks that a session has left with edits its row does not hold -/
  unsaved : List TaskId := []

/-- What can happen: an event of the daemon, and a tool call of a live session. -/
inductive JournalEvent
  | daemon (event : TaskExecutor.Event)
  | toolCall (i : ℕ) (name : List Char) (input : Json)

namespace JournalDaemon

/-- The journal in the row of a task. -/
def stored (w : JournalDaemon) (id : TaskId) : List JournalEntry :=
  (parseJournal (w.fileEdits id)).entries

/-- The journal of the `i`-th call. -/
def journalOf (w : JournalDaemon) (i : ℕ) : FileEditJournal := w.journals.getD i ⟨[]⟩

/-- The column once a session of the task has succeeded: `finalizeSuccess` writes it unless the row
is gone or cancelled. -/
def finalized (w : JournalDaemon) (id : TaskId) (journal : FileEditJournal) :
    TaskId → Option Json :=
  if (w.daemon.statusOf id).isNone || w.daemon.statusOf id == some .cancelled then w.fileEdits
  else fun other ↦ if other = id then fileEditsColumn journal else w.fileEdits other

/-- The column after an event. -/
def fileEditsAfter (w : JournalDaemon) : TaskExecutor.Event → TaskId → Option Json
  | .sessionEnded i .success =>
      match w.daemon.executor.calls[i]? with
      | some ⟨id, .live _ _ _⟩ => w.finalized id (w.journalOf i)
      | _ => w.fileEdits
  | _ => w.fileEdits

/-- The journals of the calls an event leaves: they move with their calls, and a run that starts
reads its own from the row. -/
def carried (w : JournalDaemon) : TaskExecutor.Event → List FileEditJournal
  | .resume i =>
      match w.daemon.executor.calls[i]? with
      | none | some ⟨_, .building _ _⟩ | some ⟨_, .live _ _ _⟩ => w.journals
      | some ⟨id, .reserved (.granted _)⟩ =>
          w.journals.eraseIdx i ++ [parseJournal (w.fileEdits id)]
      | some _ => w.journals.eraseIdx i
  | .contextBuilt i _ =>
      match w.daemon.executor.calls[i]? with
      | some ⟨_, .building _ _⟩ => w.journals.eraseIdx i ++ [w.journalOf i]
      | _ => w.journals
  | .sessionEnded i _ =>
      match w.daemon.executor.calls[i]? with
      | some ⟨_, .live _ _ _⟩ => w.journals.eraseIdx i
      | _ => w.journals
  | .boot _ _ => []
  | _ => w.journals

/-- The tasks of the sessions an event ends whose edits are not in the row afterwards. -/
def endedUnsaved (w : JournalDaemon) (event : TaskExecutor.Event) : List TaskId :=
  let ended (i : ℕ) : List TaskId :=
    match w.daemon.executor.calls[i]? with
    | some ⟨id, .live _ _ _⟩ =>
        if (w.journalOf i).entries = (parseJournal (w.fileEditsAfter event id)).entries then []
        else [id]
    | _ => []
  match event with
  | .sessionEnded i _ => ended i
  | .boot _ _ => (List.range w.daemon.executor.calls.length).flatMap ended
  | _ => []

/-- An event of the daemon. The calls it adds have not reached `_run`. -/
def advance (w : JournalDaemon) (event : TaskExecutor.Event) : JournalDaemon :=
  let daemon := TaskExecutor.step w.daemon event
  { w with
    daemon := daemon
    fileEdits := w.fileEditsAfter event
    journals := w.carried event ++
      List.replicate (daemon.executor.calls.length - (w.carried event).length) ⟨[]⟩
    unsaved := w.endedUnsaved event ++ w.unsaved }

/-- The `tool_call` listener of a live session. -/
def toolCall (w : JournalDaemon) (i : ℕ) (name : List Char) (input : Json) : JournalDaemon :=
  match w.daemon.executor.calls[i]? with
  | some ⟨id, .live _ _ _⟩ =>
      let newEntries := buildEntriesFromToolCall name input
      { w with
        journals := w.journals.modify i fun journal ↦ ⟨journal.entries ++ newEntries⟩
        emitted := fun other ↦
          if other = id then w.emitted id ++ newEntries else w.emitted other }
  | _ => w

def step (w : JournalDaemon) : JournalEvent → JournalDaemon
  | .daemon event => w.advance event
  | .toolCall i name input => w.toolCall i name input

/-- A daemon that has not been started yet, over any database. What the rows hold counts as what
their sessions have yielded before. -/
def stopped (tasks : TaskTable) (ai : AiTables) (overBudget : List (Option ProjectId))
    (maxConcurrentPerKey : ℕ) (fileEdits : TaskId → Option Json) : JournalDaemon where
  daemon := TaskExecutor.stopped tasks ai overBudget maxConcurrentPerKey
  fileEdits := fun id ↦ if id ≤ tasks.sequence then fileEdits id else none
  emitted := fun id ↦
    if id ≤ tasks.sequence then (parseJournal (fileEdits id)).entries else []

end JournalDaemon

end Flockctl.FileEdits
