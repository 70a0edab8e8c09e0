import Flockctl.FileEdits.Runs
import Flockctl.TaskExecutor.Finishing

/-!
# The approval diff covers the whole task

A finished task holds in its row what the tool calls of all its sessions have yielded, as long as
every session that has recorded edits hands them to `finalizeSuccess` before the task goes on: the
other exits of a run drop its journal.
-/

namespace Flockctl.FileEdits

open Collections Encoding Ai Tasks TaskExecutor Transition

namespace JournalDaemon

/-- A live session of the task has recorded edits that the row does not hold. -/
def recordsUnsaved (w : JournalDaemon) (id : TaskId) : Bool :=
  w.runs.any fun entry ↦ entry.1.taskId == id && entry.1.phase.session.isSome &&
    decide (entry.2.entries ≠ w.stored id)

/-- The condition on a step: a task gets one run at a time; it gets no further session, and no
approval, once a session has left edits its row does not hold; it is not approved over the edits of
a live session; and a session does not edit on once its task is finished. -/
def savesEdits (w : JournalDaemon) : JournalEvent → Bool
  | .daemon event => soleGrant w.daemon event &&
      match event with
      | .contextBuilt i (some _) =>
          match w.daemon.executor.calls[i]? with
          | some ⟨id, .building _ _⟩ => !w.unsaved.contains id
          | _ => true
      | .approve id =>
          !w.daemon.mayBecome id .done || (!w.unsaved.contains id && !w.recordsUnsaved id)
      | _ => true
  | .toolCall i name input =>
      match w.daemon.executor.calls[i]? with
      | some ⟨id, .live _ _ _⟩ =>
          (buildEntriesFromToolCall name input).isEmpty ||
            !(w.daemon.statusOf id).any Daemon.isFinal
      | _ => true

/-- Every finished task holds what its tool calls have yielded, in order and once each. -/
def Covers (w : JournalDaemon) : Prop :=
  ∀ id, w.daemon.Finished id → w.stored id = w.emitted id

/-- The invariant behind it: a run begins with what the row holds, a live session has all that was
yielded, and a task without a live session has it in its row unless a session has left it. -/
structure Kept (w : JournalDaemon) : Prop where
  aligned : w.Aligned
  exclusive : w.daemon.executor.Exclusive
  building : ∀ (i : ℕ) id key requiresApproval,
    w.daemon.executor.calls[i]? = some ⟨id, .building key requiresApproval⟩ →
    (w.journalOf i).entries = w.stored id
  live : ∀ (i : ℕ) id key session requiresApproval,
    w.daemon.executor.calls[i]? = some ⟨id, .live key session requiresApproval⟩ →
    id ∉ w.unsaved ∧ (w.journalOf i).entries = w.emitted id ∧
      w.stored id <+: (w.journalOf i).entries
  idle : ∀ id, (∀ (i : ℕ) key session requiresApproval,
      w.daemon.executor.calls[i]? ≠ some ⟨id, .live key session requiresApproval⟩) →
    id ∉ w.unsaved → w.stored id = w.emitted id
  covers : w.Covers

/-- Two calls underway for one task are the same call. -/
theorem index_unique {e : Executor} (h : e.Exclusive) {i k : ℕ} {call other : Call}
    (hcall : e.calls[i]? = some call) (hother : e.calls[k]? = some other)
    (htask : call.taskId = other.taskId) (hunderway : call.phase.underway = true)
    (hunderway' : other.phase.underway = true) : i = k := by
  have hnodup : (e.calls.filterMap Call.underwayTask).Nodup := h.underway
  rw [List.Nodup, List.pairwise_filterMap] at hnodup
  have happart {m n : ℕ} {first second : Call} (hlt : m < n) (hfirst : e.calls[m]? = some first)
      (hsecond : e.calls[n]? = some second) (hfirst' : first.phase.underway = true)
      (hsecond' : second.phase.underway = true) : first.taskId ≠ second.taskId := by
    obtain ⟨hm, rfl⟩ := List.getElem?_eq_some_iff.mp hfirst
    obtain ⟨hn, rfl⟩ := List.getElem?_eq_some_iff.mp hsecond
    exact List.pairwise_iff_getElem.mp hnodup m n hm hn hlt _ (Call.underwayTask_of_true hfirst') _
      (Call.underwayTask_of_true hsecond')
  rcases Nat.lt_trichotomy i k with hlt | heq | hgt
  · exact absurd htask (happart hlt hcall hother hunderway hunderway')
  · exact heq
  · exact absurd htask.symm (happart hgt hother hcall hunderway' hunderway)

section

variable {w : JournalDaemon} {event : TaskExecutor.Event}

theorem Kept.exclusive_advance (h : w.Kept) (hsole : soleGrant w.daemon event = true) :
    (w.advance event).daemon.executor.Exclusive :=
  Executor.exclusive_of_move (step_move w.daemon event)
    (fun _ _ hact ↦ not_underway_of_soleGrant hsole hact) h.exclusive

/-! ## The column -/

/-- The row of a task changes only as one of its sessions succeeds. -/
theorem stored_advance (w : JournalDaemon) (event : TaskExecutor.Event) (id : TaskId) :
    (w.advance event).stored id = w.stored id ∨
      ∃ i key session requiresApproval, event = .sessionEnded i .success ∧
        w.daemon.executor.calls[i]? = some ⟨id, .live key session requiresApproval⟩ ∧
        (w.advance event).stored id = (w.journalOf i).entries := by
  cases event with
  | sessionEnded i outcome =>
    cases outcome with
    | error err => exact .inl rfl
    | success =>
      rcases hcall : w.daemon.executor.calls[i]? with _ | ⟨other, phase⟩
      · left
        simp only [stored, advance, fileEditsAfter, hcall]
      cases phase with
      | live key session requiresApproval =>
        simp only [stored, advance, fileEditsAfter, hcall, finalized]
        split
        · exact .inl rfl
        · by_cases hother : id = other
          · subst hother
            refine .inr ⟨i, key, session, requiresApproval, rfl, hcall, ?_⟩
            dsimp only
            rw [if_pos rfl, parseJournal_fileEditsColumn]
          · left
            dsimp only
            rw [if_neg hother]
      | _ =>
        left
        simp only [stored, advance, fileEditsAfter, hcall]
  | _ => exact .inl rfl

/-- Where a session's success is written, the row gets its journal. -/
theorem stored_of_success {i : ℕ} {id : TaskId} {key : AiKey} {session : SessionId}
    {requiresApproval : Bool}
    (hcall : w.daemon.executor.calls[i]? = some ⟨id, .live key session requiresApproval⟩)
    (hrow : (w.daemon.statusOf id).isSome = true) (hstatus : w.daemon.statusOf id ≠ some .cancelled) :
    (w.advance (.sessionEnded i .success)).stored id = (w.journalOf i).entries := by
  have hwrites : ¬((w.daemon.statusOf id).isNone || w.daemon.statusOf id == some .cancelled) =
      true := by
    rw [Bool.or_eq_true, not_or]
    exact ⟨by simpa using Option.isSome_iff_ne_none.mp hrow, by simpa using hstatus⟩
  simp only [stored, advance, fileEditsAfter, hcall, finalized, if_neg hwrites, if_pos,
    parseJournal_fileEditsColumn]

theorem mem_unsaved_advance (w : JournalDaemon) (event : TaskExecutor.Event) (id : TaskId) :
    id ∈ (w.advance event).unsaved ↔ id ∈ w.endedUnsaved event ∨ id ∈ w.unsaved :=
  List.mem_append

/-- A task is left with unsaved edits by one of its live sessions, as this or the process ends. -/
theorem exists_of_mem_endedUnsaved {id : TaskId} (h : id ∈ w.endedUnsaved event) :
    ∃ i key session requiresApproval,
      w.daemon.executor.calls[i]? = some ⟨id, .live key session requiresApproval⟩ ∧
      ((∃ outcome, event = .sessionEnded i outcome) ∨
        ∃ orphans resumed, event = .boot orphans resumed) := by
  have hended (i : ℕ) (hid : id ∈ match w.daemon.executor.calls[i]? with
      | some ⟨id, .live _ _ _⟩ =>
          if (w.journalOf i).entries = (parseJournal (w.fileEditsAfter event id)).entries then []
          else [id]
      | _ => []) : ∃ key session requiresApproval,
      w.daemon.executor.calls[i]? = some ⟨id, .live key session requiresApproval⟩ := by
    split at hid
    · rename_i other key session requiresApproval hcall
      split at hid
      · cases hid
      · rw [List.mem_singleton.mp hid]
        exact ⟨key, session, requiresApproval, hcall⟩
    · cases hid
  cases event with
  | sessionEnded i outcome =>
    obtain ⟨key, session, requiresApproval, hcall⟩ := hended i h
    exact ⟨i, key, session, requiresApproval, hcall, .inl ⟨outcome, rfl⟩⟩
  | boot orphans resumed =>
    obtain ⟨i, -, hi⟩ := List.mem_flatMap.mp h
    obtain ⟨key, session, requiresApproval, hcall⟩ := hended i hi
    exact ⟨i, key, session, requiresApproval, hcall, .inr ⟨orphans, resumed, rfl⟩⟩
  | _ => cases h

/-- A live session whose end leaves nothing unsaved has its journal in the row. -/
theorem stored_of_not_mem_endedUnsaved {i : ℕ} {id : TaskId} {key : AiKey} {session : SessionId}
    {requiresApproval : Bool}
    (hcall : w.daemon.executor.calls[i]? = some ⟨id, .live key session requiresApproval⟩)
    (hended : (∃ outcome, event = .sessionEnded i outcome) ∨
      ∃ orphans resumed, event = .boot orphans resumed)
    (h : id ∉ w.endedUnsaved event) :
    (w.advance event).stored id = (w.journalOf i).entries := by
  rcases hended with ⟨outcome, rfl⟩ | ⟨orphans, resumed, rfl⟩
  · by_contra hne
    apply h
    simp only [endedUnsaved, hcall]
    rw [if_neg fun heq ↦ hne heq.symm]
    exact List.mem_singleton_self id
  · by_contra hne
    apply h
    obtain ⟨hi, -⟩ := List.getElem?_eq_some_iff.mp hcall
    refine List.mem_flatMap.mpr ⟨i, List.mem_range.mpr hi, ?_⟩
    simp only [hcall]
    rw [if_neg fun heq ↦ hne heq.symm]
    exact List.mem_singleton_self id

/-- A task inside `_run` that is not the one whose session succeeds keeps its row. -/
theorem Kept.stored_eq (h : w.Kept) {k : ℕ} {call : Call}
    (hcall : w.daemon.executor.calls[k]? = some call) (hrun : call.phase.underway = true)
    (hended : ∀ outcome, event = .sessionEnded k outcome → call.phase.session = none) :
    (w.advance event).stored call.taskId = w.stored call.taskId := by
  rcases stored_advance w event call.taskId with hsame | ⟨i, key, session, _, rfl, hlive, -⟩
  · exact hsame
  · have hindex := index_unique h.exclusive hcall hlive rfl hrun rfl
    subst hindex
    have hsession := hended .success rfl
    rw [Option.some.inj (hcall.symm.trans hlive)] at hsession
    cases hsession

/-- A task with a call underway that is not a live session has no live session. -/
theorem Kept.no_live (h : w.Kept) {k : ℕ} {call : Call}
    (hcall : w.daemon.executor.calls[k]? = some call) (hrun : call.phase.underway = true)
    (hidle : call.phase.session = none) (i : ℕ) (key : AiKey) (session : SessionId)
    (requiresApproval : Bool) :
    w.daemon.executor.calls[i]? ≠ some ⟨call.taskId, .live key session requiresApproval⟩ := by
  intro hlive
  have hindex := index_unique h.exclusive hcall hlive rfl hrun rfl
  subst hindex
  rw [Option.some.inj (hcall.symm.trans hlive)] at hidle
  cases hidle

/-- The journals of the calls inside `_run` after an event: carried over, read from the row at the
start of the run, or kept as the session starts. -/
theorem Kept.origin (h : w.Kept) {i : ℕ} {call : Call}
    (hcall : (w.advance event).daemon.executor.calls[i]? = some call)
    (hrun : call.phase.inRun = true) :
    (call, (w.advance event).journalOf i) ∈
      (Calls.carried w.daemon event).zip (w.carried event) := by
  obtain ⟨haligned, others, hothers, hruns⟩ := h.aligned.advance event
  have hmem := haligned.mem_runs hcall
  rw [hruns, List.mem_append] at hmem
  rcases hmem with hmem | hmem
  · exact hmem
  · rw [hothers _ hmem] at hrun
    cases hrun

theorem Kept.building_advance (h : w.Kept) {i : ℕ} {id : TaskId} {key : AiKey}
    {requiresApproval : Option Bool}
    (hcall : (w.advance event).daemon.executor.calls[i]? =
      some ⟨id, .building key requiresApproval⟩) :
    ((w.advance event).journalOf i).entries = (w.advance event).stored id := by
  rcases h.aligned.origin (h.origin hcall rfl) with ⟨k, hold, hjournal, -, -⟩ |
    ⟨k, other, otherKey, rfl, -, hstarted, hjournal⟩ |
    ⟨k, other, otherKey, _, outcome, -, -, hbuilt, -⟩
  · rw [hjournal, h.building k id key requiresApproval hold]
    exact (h.stored_eq hold rfl fun _ _ ↦ rfl).symm
  · have hid : id = other := by
      unfold Calls.started at hstarted
      split at hstarted
      · cases hstarted
      · split at hstarted
        · cases hstarted
        · cases hstarted
          rfl
    rw [hjournal, hid]
    rfl
  · cases outcome <;> cases hbuilt

theorem Kept.live_advance (h : w.Kept) (hallowed : w.savesEdits (.daemon event) = true) {i : ℕ}
    {id : TaskId} {key : AiKey} {session : SessionId} {requiresApproval : Bool}
    (hcall : (w.advance event).daemon.executor.calls[i]? =
      some ⟨id, .live key session requiresApproval⟩) :
    id ∉ (w.advance event).unsaved ∧
      ((w.advance event).journalOf i).entries = (w.advance event).emitted id ∧
      (w.advance event).stored id <+: ((w.advance event).journalOf i).entries := by
  rcases h.aligned.origin (h.origin hcall rfl) with ⟨k, hold, hjournal, hended, hboot⟩ |
    ⟨k, other, otherKey, rfl, -, hstarted, -⟩ |
    ⟨k, other, otherKey, approval, outcome, rfl, hbuilding, hbuilt, hjournal⟩
  · obtain ⟨hsaved, hemitted, hprefix⟩ := h.live k id key session requiresApproval hold
    have hstored : (w.advance event).stored id = w.stored id :=
      h.stored_eq hold rfl fun outcome heq ↦ hended outcome heq
    refine ⟨?_, ?_, ?_⟩
    · rw [mem_unsaved_advance, not_or]
      refine ⟨fun hmem ↦ ?_, hsaved⟩
      obtain ⟨j, _, _, _, hlive, ⟨outcome, hevent⟩ | ⟨orphans, resumed, hevent⟩⟩ :=
        exists_of_mem_endedUnsaved hmem
      · have hindex := index_unique h.exclusive hold hlive rfl rfl rfl
        subst hindex
        cases hended outcome hevent
      · exact hboot orphans resumed hevent
    · rw [hjournal]
      exact hemitted
    · rw [hjournal, hstored]
      exact hprefix
  · unfold Calls.started at hstarted
    split at hstarted
    · cases hstarted
    · split at hstarted <;> cases hstarted
  · cases outcome with
    | none => cases hbuilt
    | some context =>
      cases hbuilt
      have hsaved : id ∉ w.unsaved := by
        rw [savesEdits, Bool.and_eq_true] at hallowed
        simpa [hbuilding] using hallowed.2
      have hidle := h.idle id (h.no_live hbuilding rfl rfl) hsaved
      have hread := h.building k id key approval hbuilding
      refine ⟨?_, ?_, ?_⟩
      · rw [mem_unsaved_advance, not_or]
        exact ⟨List.not_mem_nil, hsaved⟩
      · rw [hjournal, hread]
        exact hidle
      · rw [hjournal, hread]
        exact List.prefix_refl _

theorem Kept.idle_advance (h : w.Kept) {id : TaskId}
    (hidle : ∀ (i : ℕ) key session requiresApproval,
      (w.advance event).daemon.executor.calls[i]? ≠
        some ⟨id, .live key session requiresApproval⟩)
    (hsaved : id ∉ (w.advance event).unsaved) :
    (w.advance event).stored id = (w.advance event).emitted id := by
  rw [mem_unsaved_advance, not_or] at hsaved
  change _ = w.emitted id
  by_cases hlive : ∃ (k : ℕ) (key : AiKey) (session : SessionId) (requiresApproval : Bool),
      w.daemon.executor.calls[k]? = some ⟨id, .live key session requiresApproval⟩
  · obtain ⟨k, key, session, requiresApproval, hcall⟩ := hlive
    have hended : (∃ outcome, event = .sessionEnded k outcome) ∨
        ∃ orphans resumed, event = .boot orphans resumed := by
      by_contra hgoesOn
      rw [not_or, not_exists, not_exists] at hgoesOn
      have hstays := h.aligned.live_stays hcall rfl hgoesOn.1
        fun orphans resumed heq ↦ hgoesOn.2 orphans ⟨resumed, heq⟩
      obtain ⟨haligned, others, -, hruns⟩ := h.aligned.advance event
      obtain ⟨i, hi, -⟩ := haligned.exists_of_mem (hruns ▸ List.mem_append_left others hstays)
      exact hidle i key session requiresApproval hi
    rw [stored_of_not_mem_endedUnsaved hcall hended hsaved.1]
    exact (h.live k id key session requiresApproval hcall).2.1
  · have hnone : ∀ (i : ℕ) key session requiresApproval,
        w.daemon.executor.calls[i]? ≠ some ⟨id, .live key session requiresApproval⟩ :=
      fun i key session requiresApproval hcall ↦
        hlive ⟨i, key, session, requiresApproval, hcall⟩
    rcases stored_advance w event id with hsame | ⟨i, key, session, _, -, hcall, -⟩
    · rw [hsame]
      exact h.idle id hnone hsaved.2
    · exact absurd hcall (hnone i key session _)

theorem Kept.covers_advance (h : w.Kept) (hallowed : w.savesEdits (.daemon event) = true) :
    (w.advance event).Covers := by
  intro id hid
  change _ = w.emitted id
  rcases w.daemon.step_finishes event id hid with
    hfinished | ⟨rfl, hmay⟩ | ⟨i, key, session, requiresApproval, rfl, hcall, hrow, hstatus⟩
  · rcases stored_advance w event id with hsame | ⟨i, key, session, _, -, hcall, hwritten⟩
    · rw [hsame]
      exact h.covers id hfinished
    · rw [hwritten]
      exact (h.live i id key session _ hcall).2.1
  · -- the row that is approved has everything: no session has left it, and none is ahead of it
    change w.stored id = w.emitted id
    simp only [savesEdits, hmay, Bool.and_eq_true, Bool.not_true, Bool.false_or,
      Bool.not_eq_true', List.contains_eq_mem, decide_eq_false_iff_not] at hallowed
    obtain ⟨-, hsaved, hahead⟩ := hallowed
    by_cases hlive : ∃ (k : ℕ) (key : AiKey) (session : SessionId) (requiresApproval : Bool),
        w.daemon.executor.calls[k]? = some ⟨id, .live key session requiresApproval⟩
    · obtain ⟨k, key, session, requiresApproval, hcall⟩ := hlive
      rw [recordsUnsaved, List.any_eq_false] at hahead
      have hsame := hahead _ (h.aligned.mem_runs hcall)
      have hentries : (w.journalOf k).entries = w.stored id := by
        simpa [Phase.session] using hsame
      rw [← hentries]
      exact (h.live k id key session requiresApproval hcall).2.1
    · exact h.idle id (fun i key session requiresApproval hcall ↦
        hlive ⟨i, key, session, requiresApproval, hcall⟩) hsaved
  · rw [stored_of_success hcall hrow hstatus]
    exact (h.live i id key session requiresApproval hcall).2.1

/-- The step lemma for the events of the daemon. -/
theorem Kept.advance (h : w.Kept) (hallowed : w.savesEdits (.daemon event) = true) :
    (w.advance event).Kept where
  aligned := (h.aligned.advance event).1
  exclusive := h.exclusive_advance (Bool.and_eq_true_iff.mp hallowed).1
  building _ _ _ _ hcall := h.building_advance hcall
  live _ _ _ _ _ hcall := h.live_advance hallowed hcall
  idle _ hidle hsaved := h.idle_advance hidle hsaved
  covers := h.covers_advance hallowed

/-! ## A tool call -/

/-- What the listener of a live session does. -/
theorem toolCall_of_live {i : ℕ} {id : TaskId} {key : AiKey} {session : SessionId}
    {requiresApproval : Bool}
    (hcall : w.daemon.executor.calls[i]? = some ⟨id, .live key session requiresApproval⟩)
    (name : List Char) (input : Json) :
    w.toolCall i name input =
      { w with
        journals := w.journals.modify i fun journal ↦
          ⟨journal.entries ++ buildEntriesFromToolCall name input⟩
        emitted := fun other ↦
          if other = id then w.emitted id ++ buildEntriesFromToolCall name input
          else w.emitted other } := by
  unfold toolCall
  rw [hcall]

theorem toolCall_of_not_live {i : ℕ} (name : List Char) (input : Json)
    (hcall : ∀ id key session requiresApproval,
      w.daemon.executor.calls[i]? ≠ some ⟨id, .live key session requiresApproval⟩) :
    w.toolCall i name input = w := by
  unfold toolCall
  split
  · rename_i id key session requiresApproval hlive
    exact absurd hlive (hcall id key session requiresApproval)
  · rfl

/-- The journal of the call gets the entries, and no other does. -/
theorem journalOf_modify (journals : List FileEditJournal) (i k : ℕ)
    (change : FileEditJournal → FileEditJournal) (hk : k < journals.length) :
    (journals.modify i change).getD k ⟨[]⟩ =
      if i = k then change (journals.getD k ⟨[]⟩) else journals.getD k ⟨[]⟩ := by
  rw [List.getD_eq_getElem?_getD, List.getD_eq_getElem?_getD, List.getElem?_modify,
    List.getElem?_eq_getElem hk]
  split <;> rfl

/-- The step lemma for a tool call. -/
theorem Kept.toolCall (h : w.Kept) {i : ℕ} {name : List Char} {input : Json}
    (hallowed : w.savesEdits (.toolCall i name input) = true) : (w.toolCall i name input).Kept := by
  by_cases hcalls : ∃ id key session requiresApproval,
      w.daemon.executor.calls[i]? = some ⟨id, .live key session requiresApproval⟩
  swap
  · rw [toolCall_of_not_live name input fun id key session requiresApproval hcall ↦
      hcalls ⟨id, key, session, requiresApproval, hcall⟩]
    exact h
  obtain ⟨id, key, session, requiresApproval, hcall⟩ := hcalls
  rw [toolCall_of_live hcall]
  have hbound {k : ℕ} {call : Call} (hk : w.daemon.executor.calls[k]? = some call) :
      k < w.journals.length := h.aligned ▸ (List.getElem?_eq_some_iff.mp hk).1
  have hjournal (k : ℕ) {call : Call} (hk : w.daemon.executor.calls[k]? = some call)
      (hne : call.taskId ≠ id) :
      (w.journals.modify i fun journal ↦
        ⟨journal.entries ++ buildEntriesFromToolCall name input⟩).getD k ⟨[]⟩ = w.journalOf k := by
    rw [journalOf_modify _ _ _ _ (hbound hk), if_neg]
    · rfl
    · rintro rfl
      exact hne (by rw [Option.some.inj (hk.symm.trans hcall)])
  refine ⟨?_, h.exclusive, ?_, ?_, ?_, ?_⟩
  · simp only [Aligned, List.length_modify]
    exact h.aligned
  · intro k other otherKey approval hk
    have hne : other ≠ id := by
      rintro rfl
      exact h.no_live hk rfl rfl i key session requiresApproval hcall
    have hsame := hjournal k hk hne
    simp only [journalOf]
    rw [hsame]
    exact h.building k other otherKey approval hk
  · intro k other otherKey otherSession approval hk
    obtain ⟨hsaved, hemitted, hprefix⟩ := h.live k other otherKey otherSession approval hk
    by_cases hother : other = id
    · have hindex : i = k := index_unique h.exclusive hcall hk hother.symm rfl rfl
      have hsame := journalOf_modify w.journals i k
        (fun journal ↦ ⟨journal.entries ++ buildEntriesFromToolCall name input⟩) (hbound hk)
      rw [if_pos hindex] at hsame
      simp only [journalOf] at hsame hemitted hprefix ⊢
      rw [hsame]
      refine ⟨hsaved, ?_, hprefix.trans (List.prefix_append _ _)⟩
      rw [if_pos hother, hemitted, hother]
    · have hsame := hjournal k hk hother
      simp only [journalOf]
      rw [hsame, if_neg hother]
      exact ⟨hsaved, hemitted, hprefix⟩
  · intro other hidle hsaved
    have hother : other ≠ id := by
      rintro rfl
      exact hidle i key session requiresApproval hcall
    simp only [if_neg hother]
    exact h.idle other hidle hsaved
  · intro other hfinished
    have hcovered := h.covers other hfinished
    by_cases hother : other = id
    · subst hother
      have hnone : buildEntriesFromToolCall name input = [] := by
        obtain ⟨status, hstatus, hfinal⟩ := hfinished
        have hfinal' : (w.daemon.statusOf other).any Daemon.isFinal = true := by
          rw [show w.daemon.statusOf other = some status from hstatus]
          exact hfinal
        simpa [savesEdits, hcall, hfinal'] using hallowed
      simp only [if_pos, hnone, List.append_nil]
      exact hcovered
    · simp only [if_neg hother]
      exact hcovered

/-! ## Runs -/

theorem Kept.step (h : w.Kept) {event : JournalEvent} (hallowed : w.savesEdits event = true) :
    (w.step event).Kept := by
  cases event with
  | daemon event => exact h.advance hallowed
  | toolCall i name input => exact h.toolCall hallowed

/-- What a row holds stays at the front of what it holds later. -/
theorem Kept.stored_keeps (h : w.Kept) (event : JournalEvent) (id : TaskId) :
    w.stored id <+: (w.step event).stored id := by
  cases event with
  | daemon event =>
    rcases stored_advance w event id with hsame | ⟨i, key, session, _, -, hcall, hwritten⟩
    · exact hsame ▸ List.prefix_refl _
    · change _ <+: (w.advance event).stored id
      rw [hwritten]
      exact (h.live i id key session _ hcall).2.2
  | toolCall i name input =>
    have hsame : (w.toolCall i name input).stored id = w.stored id := by
      unfold JournalDaemon.toolCall
      split <;> rfl
    exact hsame ▸ List.prefix_refl _

theorem stopped_kept (tasks : TaskTable) (ai : AiTables) (overBudget : List (Option ProjectId))
    (maxConcurrentPerKey : ℕ) (fileEdits : TaskId → Option Json) :
    (stopped tasks ai overBudget maxConcurrentPerKey fileEdits).Kept := by
  have hstored (id : TaskId) :
      (stopped tasks ai overBudget maxConcurrentPerKey fileEdits).stored id =
        (stopped tasks ai overBudget maxConcurrentPerKey fileEdits).emitted id := by
    simp only [stored, stopped]
    split <;> rfl
  have hnone (i : ℕ) (call : Call) : (stopped tasks ai overBudget maxConcurrentPerKey
      fileEdits).daemon.executor.calls[i]? ≠ some call := nofun
  exact {
    aligned := rfl
    exclusive := ⟨Multiset.nodup_zero, Indexes.empty⟩
    building := fun i id key requiresApproval hcall ↦ absurd hcall (hnone i _)
    live := fun i id key session requiresApproval hcall ↦ absurd hcall (hnone i _)
    idle := fun id _ _ ↦ hstored id
    covers := fun id _ ↦ hstored id }

end

/-- Over every run whose steps save the edits of the sessions they end, a task that is done or waits
for approval holds the entries of all its tool calls, and no row loses entries. -/
theorem journal_covers_task (tasks : TaskTable) (ai : AiTables)
    (overBudget : List (Option ProjectId)) (maxConcurrentPerKey : ℕ)
    (fileEdits : TaskId → Option Json) (events : List JournalEvent)
    (hevents : Disciplined step (fun w event ↦ w.savesEdits event = true)
      (stopped tasks ai overBudget maxConcurrentPerKey fileEdits) events) :
    (∀ before, before <+: events →
      (run step (stopped tasks ai overBudget maxConcurrentPerKey fileEdits) before).Covers) ∧
    ∀ before event, before ++ [event] <+: events → ∀ id,
      (run step (stopped tasks ai overBudget maxConcurrentPerKey fileEdits) before).stored id <+:
        (run step (stopped tasks ai overBudget maxConcurrentPerKey fileEdits)
          (before ++ [event])).stored id := by
  have hstart := stopped_kept tasks ai overBudget maxConcurrentPerKey fileEdits
  have hkept (before after : List JournalEvent) (hsplit : before ++ after = events) :
      (run step (stopped tasks ai overBudget maxConcurrentPerKey fileEdits) before).Kept :=
    run_invariant_before (fun w event h hallowed ↦ h.step hallowed) hstart before after
      (hsplit ▸ hevents)
  constructor
  · rintro before ⟨after, hsplit⟩
    exact (hkept before after hsplit).covers
  · rintro before event ⟨after, hsplit⟩ id
    rw [List.append_assoc] at hsplit
    have hlast : run step (stopped tasks ai overBudget maxConcurrentPerKey fileEdits)
        (before ++ [event]) =
        (run step (stopped tasks ai overBudget maxConcurrentPerKey fileEdits) before).step event :=
      List.foldl_append
    rw [hlast]
    exact (hkept before _ hsplit).stored_keeps event id

/-- The input of a `Write` call. -/
def writeInput : Json :=
  .object [("file_path".toList, .string "a.ts".toList), ("content".toList, .string "x".toList)]

/-- A daemon with one key on an empty database. -/
abbrev oneKeyStart : JournalDaemon :=
  stopped TaskTable.empty { keys := [{ id := 1 }] } [] 5 fun _ ↦ none

/-- A task that needs approval gets its session. -/
def firstSession : List JournalEvent :=
  [.daemon (.post { requiresApproval := some true }), .daemon (.resume 0), .daemon (.resume 0),
    .daemon (.contextBuilt 0 (some {}))]

/-- The session meets a provider limit, and the task gets its second session once the timer
fires. -/
def parkedAndResumed : List JournalEvent :=
  [.daemon (.sessionEnded 0 (.error { limit := some 1000 })), .daemon (.resume 0),
    .daemon (.timerFired 1), .daemon (.resume 0), .daemon (.resume 0),
    .daemon (.contextBuilt 0 (some {}))]

/-- The second session edits a file and succeeds. -/
def editsLast : List JournalEvent :=
  firstSession ++ parkedAndResumed ++
    [.toolCall 0 "Write".toList writeInput, .daemon (.sessionEnded 0 .success)]

theorem journal_covers_task_editsLast :
    (run step oneKeyStart editsLast).Covers ∧
      (run step oneKeyStart editsLast).emitted 1 = [⟨"a.ts".toList, [], "x".toList⟩] ∧
      (run step oneKeyStart editsLast).daemon.statusOf 1 = some .pendingApproval := by
  have hcovers := (journal_covers_task TaskTable.empty { keys := [{ id := 1 }] } [] 5
    (fun _ ↦ none) editsLast (by decide +kernel)).1 editsLast (List.prefix_refl _)
  exact ⟨hcovers, by decide +kernel, by decide +kernel⟩

/-- The first session edits a file before it is parked, and the second succeeds. -/
def editsFirst : List JournalEvent :=
  firstSession ++ [.toolCall 0 "Write".toList writeInput] ++ parkedAndResumed ++
    [.daemon (.sessionEnded 0 .success)]

/-- The task waits for approval with an empty diff. -/
theorem not_journal_covers_task : ¬(run step oneKeyStart editsFirst).Covers := by
  intro hcovers
  have hpending : (run step oneKeyStart editsFirst).daemon.statusOf 1 = some .pendingApproval := by
    decide +kernel
  have hsame := hcovers 1 ⟨.pendingApproval, hpending, rfl⟩
  have hempty : (run step oneKeyStart editsFirst).stored 1 = [] := by decide +kernel
  have hyielded : (run step oneKeyStart editsFirst).emitted 1 = [⟨"a.ts".toList, [], "x".toList⟩] := by
    decide +kernel
  rw [hempty, hyielded] at hsame
  cases hsame

end JournalDaemon

end Flockctl.FileEdits
