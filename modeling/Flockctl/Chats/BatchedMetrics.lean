import Flockctl.Chats.Metrics

/-!
# The metrics of a page are those of its chats

However the database lists the rows, the metrics that are queried for a list of chats are, for each
of them, those that are queried for it alone, and so are the names of its project and workspace:
exactly where reading the last snapshot of the todos throws for no chat of the list, or for all.
-/

namespace Flockctl.Chats.Metrics

open Collections Queries Encoding

variable {Time : Type} [LinearOrder Time] (parse : String → Option Json)

omit [LinearOrder Time] in
def ChatDatabase.chat (db : ChatDatabase Time) (id : ChatId) : Option ChatRow :=
  db.chats.find? fun row ↦ row.id = id

/-- Each chat of the list gets what it gets alone, or the same exception. -/
structure BatchedAgrees (db : ChatDatabase Time) (listing : Listing db) (chatIds : List ChatId) :
    Prop where
  metrics : ∀ id ∈ chatIds, (getChatMetricsBatched parse listing.tables chatIds).map (·.get id) =
    (getChatMetrics parse db id).map some
  contexts : ∀ id ∈ chatIds,
    (resolveChatContextsBatched listing.tables (chatIds.filterMap db.chat)).get id =
      (db.chat id).map (resolveChatContext db)

/-- No snapshot of the chat is later. -/
structure IsLatest (db : ChatDatabase Time) (id : ChatId) (row : TodoRow Time) : Prop where
  mem : row ∈ db.todos
  chat : row.chatId = id
  latest : ∀ other ∈ db.todos, other.chatId = id → LaterTodo row other

/-- The last snapshot of the chat is an array with a `null`. -/
def HasNullTodo (db : ChatDatabase Time) (id : ChatId) : Prop :=
  ∃ row, IsLatest db id row ∧ row.todosJson ≠ "" ∧ Json.null ∈ parseTodosJson parse row.todosJson

theorem countTodo_eq_none_iff (counts : TodoCounts) (todo : Json) :
    countTodo counts todo = none ↔ todo = .null := by
  unfold countTodo
  split
  · exact iff_of_true rfl rfl
  · rename_i hvalue
    refine iff_of_false ?_ hvalue
    split
    · nofun
    · split <;> nofun

theorem computeCounts_eq_none_iff (todos : List Json) :
    computeCounts todos = none ↔ Json.null ∈ todos := by
  have hfold (counts : TodoCounts) :
      todos.foldlM countTodo counts = none ↔ Json.null ∈ todos := by
    induction todos generalizing counts with
    | nil => simp [pure]
    | cons todo rest ih =>
      rw [List.foldlM_cons, List.mem_cons]
      cases hcount : countTodo counts todo with
      | none =>
        have hnull := (countTodo_eq_none_iff counts todo).mp hcount
        exact iff_of_true rfl (Or.inl hnull.symm)
      | some next =>
        have hvalue : Json.null ≠ todo := by
          rintro rfl
          cases hcount
        simpa [hvalue] using ih next
  exact hfold _

omit [LinearOrder Time] in
theorem snapshotCounts_eq_none_iff (row : TodoRow Time) :
    snapshotCounts parse row = none ↔
      row.todosJson ≠ "" ∧ Json.null ∈ parseTodosJson parse row.todosJson := by
  unfold snapshotCounts
  split_ifs with hempty
  · simp [hempty]
  · rw [Option.map_eq_none_iff, computeCounts_eq_none_iff]
    simp [hempty]

/-! ## The last snapshot -/

theorem LaterTodo.refl (row : TodoRow Time) : LaterTodo row row := Or.inr ⟨rfl, le_refl _⟩

instance : Std.Total (LaterTodo : TodoRow Time → TodoRow Time → Prop) where
  total row other := by
    unfold LaterTodo
    rcases lt_trichotomy row.createdAt other.createdAt with h | h | h
    · exact Or.inr (Or.inl h)
    · rcases le_total other.id row.id with hid | hid
      · exact Or.inl (Or.inr ⟨h.symm, hid⟩)
      · exact Or.inr (Or.inr ⟨h, hid⟩)
    · exact Or.inl (Or.inl h)

instance : IsTrans (TodoRow Time) LaterTodo where
  trans first second third := by
    rintro (hfirst | ⟨hfirst, hid⟩) (hsecond | ⟨hsecond, hid'⟩)
    · exact Or.inl (hsecond.trans hfirst)
    · exact Or.inl (hsecond ▸ hfirst)
    · exact Or.inl (hfirst ▸ hsecond)
    · exact Or.inr ⟨hsecond.trans hfirst, hid'.trans hid⟩

instance : Std.Total (LaterByChat : TodoRow Time → TodoRow Time → Prop) where
  total row other := by
    unfold LaterByChat
    rcases lt_trichotomy row.chatId other.chatId with h | h | h
    · exact Or.inl (Or.inl h)
    · rcases total_of LaterTodo row other with hlater | hlater
      · exact Or.inl (Or.inr ⟨h, hlater⟩)
      · exact Or.inr (Or.inr ⟨h.symm, hlater⟩)
    · exact Or.inr (Or.inl h)

instance : IsTrans (TodoRow Time) LaterByChat where
  trans first second third := by
    rintro (hfirst | ⟨hfirst, hlater⟩) (hsecond | ⟨hsecond, hlater'⟩)
    · exact Or.inl (hfirst.trans hsecond)
    · exact Or.inl (hsecond ▸ hfirst)
    · exact Or.inl (hfirst ▸ hsecond)
    · exact Or.inr ⟨hfirst.trans hsecond, trans_of LaterTodo hlater hlater'⟩

section

variable {db : ChatDatabase Time} {id : ChatId}

theorem IsLatest.unique {row other : TodoRow Time} (hrow : IsLatest db id row)
    (hother : IsLatest db id other) : row = other := by
  have hid : row.id = other.id := by
    rcases hrow.latest other hother.mem hother.chat with h | ⟨-, hle⟩
    · rcases hother.latest row hrow.mem hrow.chat with h' | ⟨hsame, -⟩
      · exact absurd h' (lt_asymm h)
      · exact absurd h (hsame ▸ lt_irrefl _)
    · rcases hother.latest row hrow.mem hrow.chat with h' | ⟨-, hle'⟩
      · rcases hrow.latest other hother.mem hother.chat with h | ⟨hsame, -⟩
        · exact absurd h' (lt_asymm h)
        · exact absurd h' (hsame ▸ lt_irrefl _)
      · exact le_antisymm hle' hle
  exact List.inj_on_of_nodup_map db.todoIds hrow.mem hother.mem hid

/-- Of rows that hold the snapshots of a chat in an order, the first is the last snapshot. -/
theorem find_eq_some_iff {r : TodoRow Time → TodoRow Time → Prop} [DecidableRel r] [Std.Total r]
    [IsTrans (TodoRow Time) r] {rows : List (TodoRow Time)}
    (hrows : ∀ row, row.chatId = id → (row ∈ rows ↔ row ∈ db.todos))
    (hr : ∀ row other, row.chatId = id → other.chatId = id → (r row other ↔ LaterTodo row other))
    (row : TodoRow Time) :
    ((orderBy r rows).find? fun row ↦ row.chatId = id) = some row ↔ IsLatest db id row := by
  have hlatest {first : TodoRow Time}
      (h : ((orderBy r rows).find? fun row ↦ row.chatId = id) = some first) :
      IsLatest db id first := by
    obtain ⟨hmem, hchat, hall⟩ := first_of_orderBy h
    have hid : first.chatId = id := of_decide_eq_true hchat
    refine ⟨(hrows first hid).mp hmem, hid, fun other hother hotherId ↦ ?_⟩
    rcases hall other ((hrows other hotherId).mpr hother) (decide_eq_true hotherId) with rfl | hlater
    · exact LaterTodo.refl _
    · exact (hr first other hid hotherId).mp hlater
  constructor
  · exact hlatest
  · intro h
    cases hfound : (orderBy r rows).find? fun row ↦ row.chatId = id with
    | none =>
      have hmissing := find_orderBy_eq_none_iff.mp hfound row ((hrows row h.chat).mpr h.mem)
      exact absurd (decide_eq_true h.chat) hmissing
    | some first => rw [(hlatest hfound).unique h]

/-- The query of one chat finds its last snapshot. -/
theorem head_latest_eq_some_iff (row : TodoRow Time) :
    (orderBy LaterTodo (db.todos.filter fun row ↦ row.chatId = id)).head? = some row ↔
      IsLatest db id row := by
  have hall : (orderBy LaterTodo (db.todos.filter fun row ↦ row.chatId = id)).head? =
      (orderBy LaterTodo (db.todos.filter fun row ↦ row.chatId = id)).find?
        fun row ↦ row.chatId = id := by
    cases horder : orderBy LaterTodo (db.todos.filter fun row ↦ row.chatId = id) with
    | nil => rfl
    | cons first rest =>
      have hmem : first ∈ orderBy LaterTodo (db.todos.filter fun row ↦ row.chatId = id) := by
        rw [horder]
        exact List.mem_cons_self
      have hfirst := (List.mem_filter.mp ((List.mem_insertionSort LaterTodo).mp hmem)).2
      rw [List.head?_cons, List.find?_cons, hfirst]
  rw [hall]
  refine find_eq_some_iff (fun row hrow ↦ ?_) (fun _ _ _ _ ↦ Iff.rfl) row
  simp [List.mem_filter, hrow]

/-- The query of a list of chats lists the last snapshot of each first. -/
theorem find_latest_eq (listing : Listing db) {chatIds : List ChatId} (hid : id ∈ chatIds) :
    ((orderBy LaterByChat (listing.tables.todos.filter fun row ↦ row.chatId ∈ chatIds)).find?
      fun row ↦ row.chatId = id) =
      (orderBy LaterTodo (db.todos.filter fun row ↦ row.chatId = id)).head? := by
  refine Option.ext fun row ↦ ?_
  rw [head_latest_eq_some_iff]
  refine find_eq_some_iff (fun row hrow ↦ ?_) (fun row other hrow hother ↦ ?_) row
  · rw [List.mem_filter, listing.todos.mem_iff, hrow]
    simp [hid]
  · unfold LaterByChat
    simp [hrow, hother]

end

/-! ## Merged results -/

section

variable {db : ChatDatabase Time} {id : ChatId} {chatIds : List ChatId}

omit [LinearOrder Time] in
theorem get_seedMetrics : (seedMetrics chatIds : MetricsMap Time).get id =
    if id ∈ chatIds then some zeroMetrics else none := by
  have hseed : (seedMetrics chatIds : MetricsMap Time) =
      setRows (fun chatId ↦ chatId) (fun _ ↦ zeroMetrics) chatIds JsMap.empty := rfl
  rw [hseed, get_setRows, List.filter_eq, JsMap.get_empty, Option.or_none]
  by_cases hid : id ∈ chatIds
  · have hcount : List.count id chatIds ≠ 0 := (List.count_pos_iff.mpr hid).ne'
    rw [if_pos hid, List.getLast?_replicate, if_neg hcount]
    rfl
  · rw [if_neg hid, List.count_eq_zero.mpr hid]
    rfl

theorem inArray_some (hid : id ∈ chatIds) : inArray chatIds (some id) = true := decide_eq_true hid

omit [LinearOrder Time] in
/-- The rows of one chat, of all those of the list. -/
theorem filter_inArray {Row : Type} (chatOf : Row → Option ChatId) (rows : List Row)
    (hid : id ∈ chatIds) :
    (rows.filter fun row ↦ inArray chatIds (chatOf row)).filter (fun row ↦ chatOf row = some id) =
      rows.filter fun row ↦ chatOf row = some id := by
  rw [List.filter_filter]
  refine List.filter_congr fun row _ ↦ ?_
  by_cases hrow : chatOf row = some id
  · rw [hrow, inArray_some hid, Bool.and_true]
  · simp [hrow]

omit [LinearOrder Time] in
/-- What a merge of groups leaves of a chat: its group changes it, if it has one. -/
theorem get_merge_groups {Row : Type} (chatOf : Row → Option ChatId) (rows : List Row)
    (change : List Row → ChatMetrics Time → ChatMetrics Time) (hid : id ∈ chatIds)
    (result : MetricsMap Time) :
    (mergeRows Prod.fst (fun group ↦ change group.2)
      (groupBy chatOf (rows.filter fun row ↦ inArray chatIds (chatOf row))) result).get id =
      (result.get id).map fun entry ↦
        if (rows.filter fun row ↦ chatOf row = some id) = [] then entry
        else change (rows.filter fun row ↦ chatOf row = some id) entry := by
  rw [get_mergeRows, filter_groupBy, filter_inArray chatOf rows hid]
  by_cases hrows : (rows.filter fun row ↦ chatOf row = some id) = []
  · simp only [if_pos hrows, List.foldl_nil]
  · simp only [if_neg hrows, List.foldl_cons, List.foldl_nil]

omit [LinearOrder Time] in
theorem countRole_getD (role : String) {messages : List (MessageRow Time)} (h : messages ≠ []) :
    some ((countRole role messages).getD 0) = countRole role messages := by
  obtain ⟨m, rest, rfl⟩ := List.exists_cons_of_ne_nil h
  rfl

/-- The counts a chat gets from rows: of those that are its own, the first is counted. -/
def countsFrom (rows : List (TodoRow Time)) (id : ChatId) : Option (Option TodoCounts) :=
  match rows.find? fun row ↦ row.chatId = id with
  | none => some none
  | some row => snapshotCounts parse row

def withCounts (counts : Option TodoCounts) (entry : ChatMetrics Time) : ChatMetrics Time :=
  match counts with
  | none => entry
  | some counts => { entry with todosCounts := some counts }

omit [LinearOrder Time] in
theorem countsFrom_cons_of_ne {row : TodoRow Time} (rest : List (TodoRow Time))
    (h : row.chatId ≠ id) : countsFrom parse (row :: rest) id = countsFrom parse rest id := by
  unfold countsFrom
  rw [List.find?_cons_of_neg (by simpa using h)]

omit [LinearOrder Time] in
theorem countsFrom_cons_self (row : TodoRow Time) (rest : List (TodoRow Time)) :
    countsFrom parse (row :: rest) row.chatId = snapshotCounts parse row := by
  unfold countsFrom
  rw [List.find?_cons_of_pos (by simp)]

omit [LinearOrder Time] in
/-- The merge throws with the first snapshot of a chat that does. -/
theorem mergeTodos_eq_none_iff (rows : List (TodoRow Time)) (seen : List ChatId)
    (result : MetricsMap Time) : mergeTodos parse rows seen result = none ↔
      ∃ id, id ∉ seen ∧ (result.get id).isSome = true ∧ countsFrom parse rows id = none := by
  fun_induction mergeTodos parse rows seen result with
  | case1 => exact iff_of_false nofun (by simp [countsFrom])
  | case2 row rest seen result hseen ih =>
    rw [ih]
    refine exists_congr fun id ↦ and_congr_right fun hid ↦ ?_
    have hrow : row.chatId ≠ id := by
      rintro rfl
      exact hid hseen
    rw [countsFrom_cons_of_ne parse rest hrow]
  | case3 row rest seen result hseen hnone ih =>
    rw [ih]
    refine exists_congr fun id ↦ ?_
    by_cases hrow : row.chatId = id
    · subst hrow
      simp [hnone]
    · simp [Ne.symm hrow, countsFrom_cons_of_ne parse rest hrow]
  | case4 row rest seen result hseen entry hentry hthrows =>
    refine iff_of_true rfl ⟨row.chatId, hseen, by simp [hentry], ?_⟩
    rw [countsFrom_cons_self, hthrows]
  | case5 row rest seen result hseen entry hentry hcounts ih =>
    rw [ih]
    refine exists_congr fun id ↦ ?_
    by_cases hrow : row.chatId = id
    · subst hrow
      simp [countsFrom_cons_self, hcounts]
    · simp [Ne.symm hrow, countsFrom_cons_of_ne parse rest hrow]
  | case6 row rest seen result hseen entry hentry counts hcounts ih =>
    rw [ih]
    refine exists_congr fun id ↦ ?_
    by_cases hrow : row.chatId = id
    · subst hrow
      simp [countsFrom_cons_self, hcounts]
    · simp [Ne.symm hrow, countsFrom_cons_of_ne parse rest hrow, JsMap.get_modify]

omit [LinearOrder Time] in
/-- What the merge leaves of a chat. -/
theorem get_mergeTodos {rows : List (TodoRow Time)} {seen : List ChatId}
    {result merged : MetricsMap Time} (h : mergeTodos parse rows seen result = some merged)
    (id : ChatId) : merged.get id =
      if id ∈ seen then result.get id
      else (result.get id).map (withCounts ((countsFrom parse rows id).getD none)) := by
  fun_induction mergeTodos parse rows seen result with
  | case1 =>
    cases h
    cases merged.get id <;> simp [countsFrom, withCounts]
  | case2 row rest seen result hseen ih =>
    rw [ih h]
    split
    · rfl
    · rename_i hid
      have hrow : row.chatId ≠ id := by
        rintro rfl
        exact hid hseen
      rw [countsFrom_cons_of_ne parse rest hrow]
  | case3 row rest seen result hseen hnone ih =>
    rw [ih h]
    by_cases hrow : row.chatId = id
    · subst hrow
      simp [hnone]
    · simp [Ne.symm hrow, countsFrom_cons_of_ne parse rest hrow]
  | case4 row rest seen result hseen entry hentry hthrows => cases h
  | case5 row rest seen result hseen entry hentry hcounts ih =>
    rw [ih h]
    by_cases hrow : row.chatId = id
    · subst hrow
      simp [countsFrom_cons_self, hcounts, hentry, hseen, withCounts]
    · simp [Ne.symm hrow, countsFrom_cons_of_ne parse rest hrow]
  | case6 row rest seen result hseen entry hentry counts hcounts ih =>
    rw [ih h]
    by_cases hrow : row.chatId = id
    · subst hrow
      simp [countsFrom_cons_self, hcounts, hentry, hseen, withCounts, JsMap.get_modify]
    · simp [Ne.symm hrow, countsFrom_cons_of_ne parse rest hrow, JsMap.get_modify]

/-! ## The metrics before the todos -/

instance : Std.Total (LaterMessage : MessageRow Time → MessageRow Time → Prop) where
  total m other := (NullsFirst.total m.createdAt other.createdAt).symm

instance : IsTrans (MessageRow Time) LaterMessage where
  trans _ _ _ hfirst hsecond := NullsFirst.trans hsecond hfirst

/-- The last message of one query has the largest time of another. -/
theorem lastMessage_eq {messages listed : List (MessageRow Time)} (h : messages.Perm listed) :
    ((orderBy LaterMessage messages).head?.bind fun m ↦ m.createdAt) =
      maxOf (listed.map fun m ↦ m.createdAt) := by
  cases hfirst : (orderBy LaterMessage messages).head? with
  | none =>
    rw [head_orderBy_eq_none_iff.mp hfirst] at h
    rw [h.symm.eq_nil]
    rfl
  | some first =>
    obtain ⟨hmem, hall⟩ := head_of_orderBy hfirst
    change first.createdAt = _
    refine (maxOf_eq (List.mem_map_of_mem (h.mem_iff.mp hmem)) fun value hvalue ↦ ?_).symm
    obtain ⟨m, hm, rfl⟩ := List.mem_map.mp hvalue
    rcases hall m (h.mem_iff.mpr hm) with rfl | hlater
    · exact (NullsFirst.total m.createdAt m.createdAt).elim id id
    · exact hlater

/-- The metrics that do not throw, by the rows of one chat. -/
def rowMetrics (messages : List (MessageRow Time)) (usage : List (UsageRow × MessageRow Time)) :
    ChatMetrics Time where
  messageCount := messages.length
  userMessageCount := some ((countRole "user" messages).getD 0)
  assistantMessageCount := some ((countRole "assistant" messages).getD 0)
  totalInputTokens := (sumOf (usage.map fun row ↦ row.1.inputTokens)).getD 0
  totalOutputTokens := (sumOf (usage.map fun row ↦ row.1.outputTokens)).getD 0
  totalCostUsd := (sumOf (usage.map fun row ↦ row.1.totalCostUsd)).getD 0
  totalCopilotQuota := ((usage.filter fun row ↦ row.1.provider = "github_copilot").map fun row ↦
    getCopilotQuotaMultiplier row.1.model).sum
  lastMessageAt := maxOf (messages.map (·.createdAt))
  todosCounts := none

theorem rowMetrics_perm {messages listed : List (MessageRow Time)}
    {usage listedUsage : List (UsageRow × MessageRow Time)} (hmessages : messages.Perm listed)
    (husage : usage.Perm listedUsage) :
    rowMetrics messages usage = rowMetrics listed listedUsage := by
  have hmax : maxOf (messages.map (·.createdAt)) = maxOf (listed.map (·.createdAt)) :=
    (lastMessage_eq (List.Perm.refl messages)).symm.trans (lastMessage_eq hmessages)
  have hrole (role : String) : countRole role messages = countRole role listed :=
    sumOf_perm (hmessages.map _)
  simp only [rowMetrics, hmessages.length_eq, hrole, hmax, sumOf_perm (husage.map _),
    ((husage.filter _).map _).sum_eq]

/-- The counts of the last snapshot of a chat. -/
def latestCounts (db : ChatDatabase Time) (id : ChatId) : Option (Option TodoCounts) :=
  match (orderBy LaterTodo (db.todos.filter fun row ↦ row.chatId = id)).head? with
  | none => some none
  | some row => snapshotCounts parse row

/-- The metrics of one chat, by its rows. -/
theorem getChatMetrics_eq (db : ChatDatabase Time) (id : ChatId) :
    getChatMetrics parse db id = (latestCounts parse db id).map fun counts ↦
      { rowMetrics (db.messages.filter fun m ↦ m.chatId = some id)
          ((messageUsage db).filter fun row ↦ row.2.chatId = some id) with
        todosCounts := counts } := by
  have hquota (rows : List (UsageRow × MessageRow Time)) (sum : ℚ) :
      rows.foldl (fun sum row ↦ sum + getCopilotQuotaMultiplier row.1.model) sum =
        sum + (rows.map fun row ↦ getCopilotQuotaMultiplier row.1.model).sum := by
    induction rows generalizing sum with
    | nil => simp
    | cons row rest ih => rw [List.foldl_cons, ih, List.map_cons, List.sum_cons, add_assoc]
  unfold getChatMetrics rowMetrics
  simp only [hquota, zero_add, lastMessage_eq (List.Perm.refl _), List.filter_filter,
    Bool.and_comm]
  rfl

theorem latestCounts_eq_none_iff (db : ChatDatabase Time) (id : ChatId) :
    latestCounts parse db id = none ↔ HasNullTodo parse db id := by
  unfold latestCounts HasNullTodo
  simp only [← head_latest_eq_some_iff]
  cases (orderBy LaterTodo (db.todos.filter fun row ↦ row.chatId = id)).head? with
  | none => simp
  | some row => simp [snapshotCounts_eq_none_iff]

/-- Rows that are listed for a page hold the counts of each of its chats. -/
theorem countsFrom_eq (listing : Listing db) (hid : id ∈ chatIds) :
    countsFrom parse
      (orderBy LaterByChat (listing.tables.todos.filter fun row ↦ row.chatId ∈ chatIds)) id =
      latestCounts parse db id := by
  unfold countsFrom latestCounts
  rw [find_latest_eq listing hid]

/-- The metrics of a page before the todos are merged. -/
def mergedRows (db : ChatDatabase Time) (chatIds : List ChatId) : MetricsMap Time :=
  mergeCopilot db chatIds (mergeUsage db chatIds (mergeMessages db chatIds (seedMetrics chatIds)))

theorem get_mergeMessages (db : ChatDatabase Time) (hid : id ∈ chatIds)
    (result : MetricsMap Time) (hresult : result.get id = some zeroMetrics) :
    (mergeMessages db chatIds result).get id =
      some { rowMetrics (db.messages.filter fun m ↦ m.chatId = some id) [] with
        totalCopilotQuota := 0 } := by
  refine (get_merge_groups (·.chatId) db.messages
    (fun rows entry ↦
      { entry with
        messageCount := rows.length
        userMessageCount := countRole "user" rows
        assistantMessageCount := countRole "assistant" rows
        lastMessageAt := maxOf (rows.map (·.createdAt)) }) hid result).trans ?_
  rw [hresult, Option.map_some]
  by_cases hrows : (db.messages.filter fun m ↦ m.chatId = some id) = []
  · rw [if_pos hrows, hrows]
    rfl
  · rw [if_neg hrows]
    simp only [rowMetrics, countRole_getD _ hrows]
    rfl

theorem get_mergeUsage (db : ChatDatabase Time) (hid : id ∈ chatIds) (result : MetricsMap Time)
    (messages : List (MessageRow Time))
    (hresult : result.get id = some { rowMetrics messages [] with totalCopilotQuota := 0 }) :
    (mergeUsage db chatIds result).get id =
      some { rowMetrics messages ((messageUsage db).filter fun row ↦ row.2.chatId = some id) with
        totalCopilotQuota := 0 } := by
  refine (get_merge_groups (·.2.chatId) (messageUsage db)
    (fun rows entry ↦
      { entry with
        totalInputTokens := (sumOf (rows.map fun row ↦ row.1.inputTokens)).getD 0
        totalOutputTokens := (sumOf (rows.map fun row ↦ row.1.outputTokens)).getD 0
        totalCostUsd := (sumOf (rows.map fun row ↦ row.1.totalCostUsd)).getD 0 }) hid
    result).trans ?_
  rw [hresult, Option.map_some]
  by_cases hrows : ((messageUsage db).filter fun row ↦ row.2.chatId = some id) = []
  · rw [if_pos hrows, hrows]
  · rw [if_neg hrows]
    rfl

theorem get_mergeCopilot (db : ChatDatabase Time) (hid : id ∈ chatIds) (result : MetricsMap Time)
    (messages : List (MessageRow Time)) (usage : List (UsageRow × MessageRow Time))
    (husage : usage = (messageUsage db).filter fun row ↦ row.2.chatId = some id)
    (hresult : result.get id = some { rowMetrics messages usage with totalCopilotQuota := 0 }) :
    (mergeCopilot db chatIds result).get id = some (rowMetrics messages usage) := by
  have hfold (rows : List (UsageRow × MessageRow Time)) (entry : ChatMetrics Time) :
      rows.foldl (fun entry row ↦
        { entry with
          totalCopilotQuota := entry.totalCopilotQuota + getCopilotQuotaMultiplier row.1.model })
        entry =
        { entry with
          totalCopilotQuota := entry.totalCopilotQuota +
            (rows.map fun row ↦ getCopilotQuotaMultiplier row.1.model).sum } := by
    induction rows generalizing entry with
    | nil => simp
    | cons row rest ih => rw [List.foldl_cons, ih, List.map_cons, List.sum_cons, add_assoc]
  have hrows : ((messageUsage db).filter fun row ↦
      inArray chatIds row.2.chatId && row.1.provider = "github_copilot").filter
        (fun row ↦ row.2.chatId = some id) =
      usage.filter fun row ↦ row.1.provider = "github_copilot" := by
    rw [husage, ← filter_inArray (·.2.chatId) (messageUsage db) hid]
    simp only [List.filter_filter]
    refine List.filter_congr fun row _ ↦ ?_
    ac_rfl
  unfold mergeCopilot
  rw [get_mergeRows, hresult, hrows, Option.map_some, hfold, zero_add]
  rfl

/-- What the first three merges leave of a chat. -/
theorem get_mergedRows (db : ChatDatabase Time) (hid : id ∈ chatIds) :
    (mergedRows db chatIds).get id =
      some (rowMetrics (db.messages.filter fun m ↦ m.chatId = some id)
        ((messageUsage db).filter fun row ↦ row.2.chatId = some id)) := by
  have hseed : (seedMetrics chatIds : MetricsMap Time).get id = some zeroMetrics := by
    rw [get_seedMetrics, if_pos hid]
  have hmessages := get_mergeMessages db hid _ hseed
  have husage := get_mergeUsage db hid _ _ hmessages
  exact get_mergeCopilot db hid _ _ _ rfl husage

/-- The rows of one chat are the same in every listing. -/
theorem rowMetrics_listing (listing : Listing db) :
    rowMetrics (listing.tables.messages.filter fun m ↦ m.chatId = some id)
        ((messageUsage listing.tables).filter fun row ↦ row.2.chatId = some id) =
      rowMetrics (db.messages.filter fun m ↦ m.chatId = some id)
        ((messageUsage db).filter fun row ↦ row.2.chatId = some id) :=
  rowMetrics_perm (listing.messages.filter _)
    ((innerJoin_perm listing.usageRecords listing.messages _).filter _)

/-- The query of a list of chats throws with one of them. -/
theorem getChatMetricsBatched_eq_none_iff (listing : Listing db) :
    getChatMetricsBatched parse listing.tables chatIds = none ↔
      ∃ id ∈ chatIds, HasNullTodo parse db id := by
  unfold getChatMetricsBatched
  split
  · rename_i hnil
    simp [hnil]
  · change mergeTodos parse _ [] (mergedRows listing.tables chatIds) = none ↔ _
    rw [mergeTodos_eq_none_iff]
    refine exists_congr fun id ↦ ?_
    by_cases hid : id ∈ chatIds
    · rw [countsFrom_eq parse listing hid, latestCounts_eq_none_iff,
        get_mergedRows listing.tables hid]
      simp [hid]
    · refine iff_of_false (fun h ↦ ?_) fun h ↦ hid h.1
      have hnone : ((orderBy LaterByChat
          (listing.tables.todos.filter fun row ↦ row.chatId ∈ chatIds)).find?
            fun row ↦ row.chatId = id) = none := by
        refine find_orderBy_eq_none_iff.mpr fun row hrow hchat ↦ hid ?_
        rw [← of_decide_eq_true hchat]
        exact of_decide_eq_true (List.mem_filter.mp hrow).2
      have hcounts := h.2.2
      unfold countsFrom at hcounts
      rw [hnone] at hcounts
      cases hcounts

/-- Where it does not throw, it holds the metrics of each. -/
theorem get_getChatMetricsBatched (listing : Listing db) {result : MetricsMap Time}
    (h : getChatMetricsBatched parse listing.tables chatIds = some result) (hid : id ∈ chatIds) :
    result.get id = getChatMetrics parse db id := by
  have hreads : latestCounts parse db id ≠ none := by
    intro hthrows
    have hpage := (getChatMetricsBatched_eq_none_iff parse listing).mpr
      ⟨id, hid, (latestCounts_eq_none_iff parse db id).mp hthrows⟩
    cases hpage.symm.trans h
  unfold getChatMetricsBatched at h
  rw [if_neg (List.ne_nil_of_mem hid)] at h
  change mergeTodos parse _ [] (mergedRows listing.tables chatIds) = some result at h
  rw [get_mergeTodos parse h, if_neg List.not_mem_nil, get_mergedRows listing.tables hid,
    rowMetrics_listing listing, countsFrom_eq parse listing hid, getChatMetrics_eq]
  obtain ⟨counts, hcounts⟩ := Option.ne_none_iff_exists'.mp hreads
  rw [hcounts]
  cases counts <;> rfl

theorem getChatMetrics_eq_none_iff : getChatMetrics parse db id = none ↔ HasNullTodo parse db id := by
  rw [getChatMetrics_eq, Option.map_eq_none_iff, latestCounts_eq_none_iff]

/-- The page agrees with its chats where it throws for none of them, or each throws. -/
theorem metrics_agree_iff (listing : Listing db) :
    (∀ id ∈ chatIds, (getChatMetricsBatched parse listing.tables chatIds).map (·.get id) =
      (getChatMetrics parse db id).map some) ↔
      (∀ id ∈ chatIds, ¬HasNullTodo parse db id) ∨ ∀ id ∈ chatIds, HasNullTodo parse db id := by
  cases hpage : getChatMetricsBatched parse listing.tables chatIds with
  | none =>
    obtain ⟨bad, hbad, hnull⟩ := (getChatMetricsBatched_eq_none_iff parse listing).mp hpage
    rw [or_iff_right fun hall ↦ hall bad hbad hnull]
    refine forall₂_congr fun id hid ↦ ?_
    rw [← getChatMetrics_eq_none_iff, Option.map_none, eq_comm, Option.map_eq_none_iff]
  | some result =>
    have hreads : ∀ id ∈ chatIds, ¬HasNullTodo parse db id := by
      intro id hid hnull
      have hthrows := (getChatMetricsBatched_eq_none_iff parse listing).mpr ⟨id, hid, hnull⟩
      cases hthrows.symm.trans hpage
    refine iff_of_true (fun id hid ↦ ?_) (Or.inl hreads)
    have hsome := get_getChatMetricsBatched parse listing hpage hid
    obtain ⟨metrics, hmetrics⟩ := Option.ne_none_iff_exists'.mp
      (mt (getChatMetrics_eq_none_iff parse).mp (hreads id hid))
    rw [Option.map_some, hsome, hmetrics, Option.map_some]

end

/-! ## Names -/

section

variable {db : ChatDatabase Time}

/-- The names that are looked up for a list of ids are those of the rows. -/
theorem lookupName_nameById {rows listed : List NamedRow} (h : (rows.map (·.id)).Nodup)
    (hlisted : listed.Perm rows) {ids : List ℕ} {id : Option ℕ} (hid : ∀ one ∈ id, one ∈ ids) :
    lookupName (nameById listed ids) id = selectName rows id := by
  cases id with
  | none => rfl
  | some id =>
    unfold lookupName selectName
    dsimp only
    split
    · rfl
    · have hrows : nameById listed ids =
          setRows (·.id) (·.name) (listed.filter fun row ↦ row.id ∈ ids) JsMap.empty := rfl
      have hfilter : (listed.filter fun row ↦ row.id ∈ ids).filter (fun row ↦ row.id = id) =
          listed.filter fun row ↦ row.id = id := by
        rw [List.filter_filter]
        refine List.filter_congr fun row _ ↦ ?_
        by_cases hrow : row.id = id
        · simp [hrow, hid id rfl]
        · simp [hrow]
      have hnodup : (listed.map (·.id)).Nodup := (hlisted.map (·.id)).nodup_iff.mpr h
      rw [hrows, get_setRows, hfilter, filter_eq_toList_find hnodup, find_perm h hlisted,
        JsMap.get_empty, Option.or_none]
      cases rows.find? (fun row ↦ row.id = id) <;> rfl

omit [LinearOrder Time] in
theorem id_of_chat {id : ChatId} {row : ChatRow} (h : db.chat id = some row) : row.id = id := by
  have hrow := List.find?_some h
  exact of_decide_eq_true hrow

omit [LinearOrder Time] in
/-- Of the rows of a list of ids, the last of a chat is its row. -/
theorem getLast_chat {chatIds : List ChatId} {id : ChatId} (hid : id ∈ chatIds) :
    ((chatIds.filterMap db.chat).filter fun row ↦ row.id = id).getLast? = db.chat id := by
  have hmem (row : ChatRow) :
      row ∈ (chatIds.filterMap db.chat).filter (fun row ↦ row.id = id) ↔
        db.chat id = some row := by
    rw [List.mem_filter, List.mem_filterMap, decide_eq_true_eq]
    constructor
    · rintro ⟨⟨other, -, hother⟩, hrow⟩
      rwa [← hrow, id_of_chat hother]
    · intro hrow
      exact ⟨⟨id, hid, hrow⟩, id_of_chat hrow⟩
  cases hchat : db.chat id with
  | none =>
    rw [List.getLast?_eq_none_iff, List.eq_nil_iff_forall_not_mem]
    intro row hrow
    cases hchat.symm.trans ((hmem row).mp hrow)
  | some row =>
    have hrow := (hmem row).mpr hchat
    rw [List.getLast?_eq_some_getLast (List.ne_nil_of_mem hrow)]
    exact ((hmem _).mp (List.getLast_mem _)).symm.trans hchat

omit [LinearOrder Time] in
theorem contexts_agree (listing : Listing db) {chatIds : List ChatId} {id : ChatId}
    (hid : id ∈ chatIds) :
    (resolveChatContextsBatched listing.tables (chatIds.filterMap db.chat)).get id =
      (db.chat id).map (resolveChatContext db) := by
  let chatRows := chatIds.filterMap db.chat
  let context (row : ChatRow) : ChatContext :=
    ⟨lookupName (nameById listing.tables.projects
        (chatRows.map (·.projectId)).reduceOption.dedup) row.projectId,
      lookupName (nameById listing.tables.workspaces
        (chatRows.map (·.workspaceId)).reduceOption.dedup) row.workspaceId⟩
  have hrows : resolveChatContextsBatched listing.tables chatRows =
      setRows (·.id) context chatRows JsMap.empty := rfl
  have hids {row : ChatRow} (hrow : row ∈ chatRows) (idOf : ChatRow → Option ℕ) :
      ∀ one ∈ idOf row, one ∈ (chatRows.map idOf).reduceOption.dedup := by
    intro one hone
    rw [List.mem_dedup, List.reduceOption_mem_iff]
    exact List.mem_map.mpr ⟨row, hrow, hone⟩
  have hcontext (row : ChatRow) (hrow : row ∈ chatRows) :
      context row = resolveChatContext db row := by
    have hproject := lookupName_nameById db.projectIds listing.projects (hids hrow (·.projectId))
    have hworkspace :=
      lookupName_nameById db.workspaceIds listing.workspaces (hids hrow (·.workspaceId))
    simp only [context, resolveChatContext, hproject, hworkspace]
  change (resolveChatContextsBatched listing.tables chatRows).get id = _
  rw [hrows, get_setRows, getLast_chat hid, JsMap.get_empty, Option.or_none]
  cases hchat : db.chat id with
  | none => rfl
  | some row => exact congrArg some (hcontext row (List.mem_filterMap.mpr ⟨id, hid, hchat⟩))

end

/-- However the rows are listed, the metrics and the names of a page are those of its chats exactly
where the last snapshot of the todos is an array with a `null` for no chat of the page, or for
all. -/
theorem batchedAgrees_iff (db : ChatDatabase Time) (listing : Listing db) (chatIds : List ChatId) :
    BatchedAgrees parse db listing chatIds ↔
      (∀ id ∈ chatIds, ¬HasNullTodo parse db id) ∨ ∀ id ∈ chatIds, HasNullTodo parse db id := by
  rw [← metrics_agree_iff parse listing]
  exact ⟨fun h ↦ h.metrics, fun h ↦ ⟨h, fun id hid ↦ contexts_agree listing hid⟩⟩

/-- Two chats, of which the first has a snapshot with a `null`. -/
def nullTodoDatabase : ChatDatabase ℕ where
  chats := [⟨1, none, none⟩, ⟨2, none, none⟩]
  messages := []
  usageRecords := []
  todos := [⟨1, 1, "[null]", 0⟩]
  projects := []
  workspaces := []
  chatIds := by decide
  messageIds := by decide
  todoIds := by decide
  projectIds := by decide
  workspaceIds := by decide

def nullTodoListing : Listing nullTodoDatabase where
  tables := nullTodoDatabase
  messages := List.Perm.refl _
  usageRecords := List.Perm.refl _
  todos := List.Perm.refl _
  projects := List.Perm.refl _
  workspaces := List.Perm.refl _

def parseNullTodo (text : String) : Option Json :=
  if text = "[null]" then some (.array [.null]) else none

/-- The snapshot of the first chat makes the page throw, also for the second. -/
theorem not_batchedAgrees :
    ¬BatchedAgrees parseNullTodo nullTodoDatabase nullTodoListing [1, 2] := by
  intro h
  have hpage : (getChatMetricsBatched parseNullTodo nullTodoListing.tables [1, 2]).isNone = true := by
    decide +kernel
  have halone : (getChatMetrics parseNullTodo nullTodoDatabase 2).isSome = true := by
    decide +kernel
  have hsame := h.metrics 2 (by decide)
  rw [Option.isNone_iff_eq_none.mp hpage, Option.map_none, eq_comm, Option.map_eq_none_iff] at hsame
  rw [hsame] at halone
  cases halone

end Flockctl.Chats.Metrics
