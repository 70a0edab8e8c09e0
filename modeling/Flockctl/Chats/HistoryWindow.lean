import Flockctl.Chats.TurnSetup

/-!
# The window of the history

A provider is sent the last messages of a chat. `ORDER BY created_at` leaves open in which order it
lists the rows of one second, and of a window that was cut at most one row is dropped to make it
begin with the user's. The window is a suffix of the history that begins with a user message exactly
when rows of one second came by id as far as the window reaches, and the window has no user message
or has one at its first row, or at its second where the history was cut.
-/

namespace Flockctl.Chats

/-- The order in which the messages of a chat were written. -/
def Before (earlier later : ChatMessage) : Prop :=
  earlier.createdAt < later.createdAt ∨
    earlier.createdAt = later.createdAt ∧ earlier.id < later.id

instance (earlier later : ChatMessage) : Decidable (Before earlier later) :=
  inferInstanceAs (Decidable (_ ∨ _))

theorem Before.asymm {earlier later : ChatMessage} (h : Before earlier later) :
    ¬ Before later earlier := by
  unfold Before at *
  omega

/-- The messages of a chat, and the list the database gives of them. -/
structure HistoryQuery where
  rows : List ChatMessage
  answer : List ChatMessage
  distinct : (rows.map (·.id)).Nodup
  perm : answer.Perm rows
  sorted : answer.Pairwise fun earlier later ↦ earlier.createdAt ≤ later.createdAt

namespace HistoryQuery

variable (query : HistoryQuery) (files : AttachmentFiles)

/-- What `loadPriorMessages` returns on the answer. -/
def loaded : List PriorMessage := (trimHistory query.answer).map (priorMessage files)

/-- What is sent is a suffix of the history, in the order it was written, not too long, with the
newest message, and it begins with the user's if it has one. -/
structure WellFormedWindow : Prop where
  suffix : ∃ older kept : List ChatMessage, (older ++ kept).Perm query.rows ∧
    (older ++ kept).Pairwise Before ∧
    query.loaded files = kept.map (priorMessage files)
  bounded : (query.loaded files).length ≤ MAX_CHAT_MESSAGES
  newest : ∀ m ∈ query.rows, (∀ other ∈ query.rows, other ≠ m → Before other m) →
    priorMessage files m ∈ query.loaded files
  userFirst : (∃ m ∈ query.loaded files, m.role = .user) →
    ∃ m ∈ (query.loaded files).head?, m.role = .user

/-- The last rows of the answer. -/
def lastRows : List ChatMessage := query.answer.drop (query.answer.length - MAX_CHAT_MESSAGES)

/-- The last rows have no message of the user, begin with one, or have one at their second place
and older rows before them. -/
def CutAtUser : Prop :=
  (∀ m ∈ query.lastRows, m.role ≠ .user) ∨ (∃ m ∈ query.lastRows.head?, m.role = .user) ∨
    MAX_CHAT_MESSAGES < query.answer.length ∧ ∃ m ∈ query.lastRows[1]?, m.role = .user

/-- How many rows of the answer come before the window. -/
def start : ℕ :=
  if MAX_CHAT_MESSAGES < query.answer.length ∧ ∀ m ∈ query.lastRows.head?, m.role ≠ .user then
    query.answer.length - MAX_CHAT_MESSAGES + 1
  else query.answer.length - MAX_CHAT_MESSAGES

/-- As far as the window reaches, rows of one second are listed by id. -/
def TiesById : Prop :=
  (query.answer.drop query.start).Pairwise Before ∧
    ∀ older ∈ query.answer.take query.start, ∀ kept ∈ query.answer.drop query.start,
      Before older kept

theorem drop_start : query.answer.drop query.start =
    if MAX_CHAT_MESSAGES < query.answer.length ∧ ∀ m ∈ query.lastRows.head?, m.role ≠ .user then
      query.lastRows.drop 1
    else query.lastRows := by
  rw [start]
  split_ifs
  · rw [← List.drop_drop, lastRows]
  · rw [lastRows]

theorem trimHistory_eq_drop : trimHistory query.answer = query.answer.drop query.start := by
  rw [drop_start, trimHistory, ← lastRows]
  by_cases hlong : MAX_CHAT_MESSAGES < query.answer.length
  · rw [if_pos hlong]
    cases query.lastRows with
    | nil => simp
    | cons first rest =>
      by_cases huser : first.role = .user
      · simp [huser]
      · simp [huser, hlong]
  · rw [if_neg hlong, if_neg fun h ↦ hlong h.1, lastRows,
      Nat.sub_eq_zero_of_le (Nat.le_of_not_lt hlong), List.drop_zero]

theorem start_lt (h : query.answer ≠ []) : query.start < query.answer.length := by
  have hlength := List.length_pos_iff.mpr h
  rw [start]
  split_ifs with hcut
  · have hlong := hcut.1
    unfold MAX_CHAT_MESSAGES at hlong ⊢
    omega
  · unfold MAX_CHAT_MESSAGES
    omega

theorem loaded_eq : query.loaded files =
    (query.answer.drop query.start).map (priorMessage files) := by
  rw [loaded, trimHistory_eq_drop]

theorem loaded_length_le : (query.loaded files).length ≤ MAX_CHAT_MESSAGES := by
  rw [loaded_eq, List.length_map, List.length_drop, start]
  split_ifs <;> omega

/-- Rows of the chat are told apart by the ids of the messages that are sent. -/
theorem eq_of_map_priorMessage {left right : List ChatMessage} (hleft : left ⊆ query.rows)
    (hright : right ⊆ query.rows)
    (h : left.map (priorMessage files) = right.map (priorMessage files)) : left = right := by
  have hlength : left.length = right.length := by
    simpa using congrArg List.length h
  apply List.ext_getElem hlength
  intro i hi hi'
  have hrow : priorMessage files left[i] = priorMessage files right[i] := by
    simpa [hi, hi'] using congrArg (·[i]?) h
  exact List.inj_on_of_nodup_map query.distinct (hleft (List.getElem_mem hi))
    (hright (List.getElem_mem hi')) (congrArg PriorMessage.row hrow)

/-- Rows with different ids can be brought into the order they were written in. -/
theorem exists_chronological {rows : List ChatMessage} (h : (rows.map (·.id)).Nodup) :
    ∃ arranged : List ChatMessage, arranged.Perm rows ∧ arranged.Pairwise Before := by
  let le := fun earlier later : ChatMessage ↦
    decide (earlier.createdAt < later.createdAt ∨
      earlier.createdAt = later.createdAt ∧ earlier.id ≤ later.id)
  have hsorted : (rows.mergeSort le).Pairwise fun a b ↦ le a b = true := by
    apply List.pairwise_mergeSort
    · intro a b c hab hbc
      simp only [le, decide_eq_true_eq] at *
      omega
    · intro a b
      simp only [le, Bool.or_eq_true, decide_eq_true_eq]
      omega
  have hperm : (rows.mergeSort le).Perm rows := List.mergeSort_perm rows le
  have hids : (rows.mergeSort le).Pairwise fun a b ↦ a.id ≠ b.id := by
    rw [← List.pairwise_map (f := ChatMessage.id) (R := fun i j ↦ i ≠ j)]
    exact (hperm.map _).nodup_iff.mpr h
  refine ⟨rows.mergeSort le, hperm, (hsorted.and hids).imp ?_⟩
  intro a b hab
  have hle := hab.1
  have hne := hab.2
  simp only [le, decide_eq_true_eq] at hle
  unfold Before
  omega

theorem suffix_iff : (∃ older kept : List ChatMessage, (older ++ kept).Perm query.rows ∧
    (older ++ kept).Pairwise Before ∧ query.loaded files = kept.map (priorMessage files)) ↔
    query.TiesById := by
  have hsplit : query.answer.take query.start ++ query.answer.drop query.start = query.answer :=
    List.take_append_drop _ _
  constructor
  · rintro ⟨older, kept, hperm, hchrono, hloaded⟩
    have hkept : query.answer.drop query.start = kept := by
      apply query.eq_of_map_priorMessage files
      · exact fun m hm ↦ query.perm.subset (List.mem_of_mem_drop hm)
      · exact fun m hm ↦ hperm.subset (List.mem_append_right _ hm)
      · rw [← query.loaded_eq files, hloaded]
    have holder : older.Perm (query.answer.take query.start) := by
      rw [← List.perm_append_right_iff kept, ← hkept, hsplit, hkept]
      exact hperm.trans query.perm.symm
    rw [List.pairwise_append] at hchrono
    rw [TiesById, hkept]
    exact ⟨hchrono.2.1, fun m hm ↦ hchrono.2.2 m (holder.symm.subset hm)⟩
  · rintro ⟨hkept, hcross⟩
    have hdistinct : ((query.answer.take query.start).map (·.id)).Nodup := by
      have hall : (query.answer.map (·.id)).Nodup := (query.perm.map _).nodup_iff.mpr query.distinct
      exact hall.sublist ((List.take_sublist _ _).map _)
    obtain ⟨older, hperm, hchrono⟩ := exists_chronological hdistinct
    refine ⟨older, query.answer.drop query.start, ?_, ?_, query.loaded_eq files⟩
    · have hall := hperm.append_right (query.answer.drop query.start)
      rw [hsplit] at hall
      exact hall.trans query.perm
    · rw [List.pairwise_append]
      exact ⟨hchrono, hkept, fun m hm ↦ hcross m (hperm.subset hm)⟩

/-- Nothing in the window is older than a row before it, so the newest row is in the window. -/
theorem newest_mem (h : query.TiesById) {m : ChatMessage} (hm : m ∈ query.rows)
    (hnewest : ∀ other ∈ query.rows, other ≠ m → Before other m) :
    priorMessage files m ∈ query.loaded files := by
  have hmem : m ∈ query.answer := query.perm.symm.subset hm
  rw [loaded_eq]
  apply List.mem_map_of_mem
  by_contra hout
  have hfront : m ∈ query.answer.take query.start := by
    rw [← List.take_append_drop query.start query.answer] at hmem
    exact (List.mem_append.mp hmem).resolve_right hout
  have hstart := query.start_lt (List.ne_nil_of_mem hmem)
  obtain ⟨kept, hkept⟩ : ∃ kept, kept ∈ query.answer.drop query.start := by
    apply List.exists_mem_of_ne_nil
    rw [ne_eq, List.drop_eq_nil_iff]
    omega
  have hbefore := h.2 m hfront kept hkept
  have hne : kept ≠ m := by
    rintro rfl
    exact hout hkept
  exact hbefore.asymm
    (hnewest kept (query.perm.subset (List.mem_of_mem_drop hkept)) hne)

/-- A list without a user message, or one that begins with one. -/
def BeginsWithUser (rows : List ChatMessage) : Prop :=
  (∀ m ∈ rows, m.role ≠ .user) ∨ ∃ m ∈ rows.head?, m.role = .user

theorem beginsWithUser_iff (rows : List ChatMessage) :
    BeginsWithUser rows ↔ ((∃ m ∈ rows.map (priorMessage files), m.role = .user) →
      ∃ m ∈ (rows.map (priorMessage files)).head?, m.role = .user) := by
  have hhead : (∃ m ∈ (rows.map (priorMessage files)).head?, m.role = .user) ↔
      ∃ m ∈ rows.head?, m.role = .user := by
    cases rows with
    | nil => simp
    | cons first rest => simp [priorMessage]
  have hsome : (∃ m ∈ rows.map (priorMessage files), m.role = .user) ↔
      ∃ m ∈ rows, m.role = .user := by
    simp [priorMessage]
  rw [hhead, hsome, imp_iff_not_or, BeginsWithUser]
  push Not
  rfl

theorem beginsWithUser_trimHistory_iff :
    BeginsWithUser (trimHistory query.answer) ↔ query.CutAtUser := by
  rw [CutAtUser, trimHistory]
  by_cases hlong : MAX_CHAT_MESSAGES < query.answer.length
  · rw [if_pos hlong, ← lastRows]
    cases hlast : query.lastRows with
    | nil => simp [BeginsWithUser]
    | cons first rest =>
      by_cases huser : first.role = .user
      · simp [BeginsWithUser, huser]
      · cases rest with
        | nil => simp [BeginsWithUser, huser, hlong]
        | cons second rest => simp [BeginsWithUser, huser, hlong]
  · have hlast : query.lastRows = query.answer := by
      rw [lastRows, Nat.sub_eq_zero_of_le (Nat.le_of_not_lt hlong), List.drop_zero]
    rw [if_neg hlong, hlast, BeginsWithUser]
    simp [hlong]

theorem userFirst_iff : ((∃ m ∈ query.loaded files, m.role = .user) →
    ∃ m ∈ (query.loaded files).head?, m.role = .user) ↔ query.CutAtUser := by
  rw [loaded, ← beginsWithUser_iff, beginsWithUser_trimHistory_iff]

theorem wellFormedWindow_iff_of_tiesById (hties : query.TiesById) :
    query.WellFormedWindow files ↔ query.CutAtUser := by
  rw [← query.userFirst_iff files]
  constructor
  · exact WellFormedWindow.userFirst
  · intro huser
    exact ⟨(query.suffix_iff files).mpr hties, query.loaded_length_le files,
      fun m ↦ query.newest_mem files hties, huser⟩

/-- The window is well formed exactly when it is cut at a user message and the database lists rows
of one second by id. -/
theorem wellFormedWindow_iff :
    query.WellFormedWindow files ↔ query.CutAtUser ∧ query.TiesById := by
  constructor
  · intro h
    have hties := (query.suffix_iff files).mp h.suffix
    exact ⟨(query.wellFormedWindow_iff_of_tiesById files hties).mp h, hties⟩
  · rintro ⟨huser, hties⟩
    exact (query.wellFormedWindow_iff_of_tiesById files hties).mpr huser

/-- A user message, an answer with a tool call in it, and more turns. -/
def manyTurns : List ChatMessage :=
  ⟨1, .user, "list the files", 0, []⟩ :: ⟨2, .assistant, "I look.", 1, []⟩ ::
    ⟨3, .tool, "ls", 2, []⟩ :: (List.range 49).map fun n ↦
      ⟨n + 4, if n % 2 = 0 then .assistant else .user, "and then", n + 3, []⟩

def cutInTurn : HistoryQuery where
  rows := manyTurns
  answer := manyTurns
  distinct := by decide +kernel
  perm := List.Perm.refl _
  sorted := by decide +kernel

/-- The window begins with what the assistant said after the tool call. -/
theorem not_wellFormedWindow : ¬ ∀ query files, WellFormedWindow query files := by
  intro h
  have hcut := (cutInTurn.userFirst_iff ⟨fun _ ↦ none, fun _ ↦ none⟩).mp (h _ _).userFirst
  revert hcut
  unfold CutAtUser
  decide +kernel

end HistoryQuery

end Flockctl.Chats
