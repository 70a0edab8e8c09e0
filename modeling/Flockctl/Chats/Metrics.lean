import Flockctl.Collections.Queries
import Flockctl.Encoding.Json
import Mathlib.Algebra.Field.Rat

/-!
# The metrics of one chat and of many

The page of one chat queries its metrics alone, and the list of chats queries those of a whole page
at once, by groups that are merged in memory. Both read the last snapshot of the todos from its
text, which throws where the text is an array with a `null`; the queries of a page then throw for
every chat of it.

Token counts are integers and costs and quotas are rational numbers; the rounding of the doubles
that carry them is left out.
-/

namespace Flockctl.Chats.Metrics

open Collections Queries Encoding

abbrev ChatId := ℕ

variable {Time : Type}

structure MessageRow (Time : Type) where
  id : ℕ
  chatId : Option ChatId
  role : String
  createdAt : Option Time

structure UsageRow where
  chatMessageId : Option ℕ
  provider : String
  model : String
  inputTokens : Option ℤ
  outputTokens : Option ℤ
  totalCostUsd : Option ℚ

structure TodoRow (Time : Type) where
  id : ℕ
  chatId : ChatId
  todosJson : String
  createdAt : Time

/-- A row of `projects` or `workspaces`. -/
structure NamedRow where
  id : ℕ
  name : String

structure ChatRow where
  id : ChatId
  projectId : Option ℕ
  workspaceId : Option ℕ

/-- The ids of a table are its primary key. -/
structure ChatDatabase (Time : Type) where
  chats : List ChatRow
  messages : List (MessageRow Time)
  usageRecords : List UsageRow
  todos : List (TodoRow Time)
  projects : List NamedRow
  workspaces : List NamedRow
  chatIds : (chats.map (·.id)).Nodup
  messageIds : (messages.map (·.id)).Nodup
  todoIds : (todos.map (·.id)).Nodup
  projectIds : (projects.map (·.id)).Nodup
  workspaceIds : (workspaces.map (·.id)).Nodup

/-- The same rows in the order in which another query lists them. -/
structure Listing (db : ChatDatabase Time) where
  tables : ChatDatabase Time
  messages : tables.messages.Perm db.messages
  usageRecords : tables.usageRecords.Perm db.usageRecords
  todos : tables.todos.Perm db.todos
  projects : tables.projects.Perm db.projects
  workspaces : tables.workspaces.Perm db.workspaces

structure TodoCounts where
  total : ℕ
  completed : ℕ
  inProgress : ℕ
  pending : ℕ
  deriving DecidableEq

/-- `todo.status === status`. -/
def statusIs (todo : Json) (status : String) : Bool :=
  match todo.property "status".toList with
  | some (.string text) => text = status.toList
  | _ => false

/-- One todo is counted; reading the status of `null` throws. -/
def countTodo (counts : TodoCounts) (todo : Json) : Option TodoCounts :=
  match todo with
  | .null => none
  | todo =>
    if statusIs todo "completed" then some { counts with completed := counts.completed + 1 }
    else if statusIs todo "in_progress" then
      some { counts with inProgress := counts.inProgress + 1 }
    else some { counts with pending := counts.pending + 1 }

def computeCounts (todos : List Json) : Option TodoCounts :=
  todos.foldlM countTodo ⟨todos.length, 0, 0, 0⟩

section

variable (parse : String → Option Json)

/-- `parse` is `JSON.parse`, which throws on a text that is malformed. -/
def parseTodosJson (json : String) : List Json :=
  match parse json with
  | some (.array items) => items
  | _ => []

/-- The counts of a snapshot; there are none where its text is empty. -/
def snapshotCounts (row : TodoRow Time) : Option (Option TodoCounts) :=
  if row.todosJson = "" then some none
  else (computeCounts (parseTodosJson parse row.todosJson)).map some

end

def COPILOT_QUOTA_MULTIPLIERS : List (String × ℚ) :=
  [("claude-opus-4.7", 7.5), ("claude-sonnet-4.6", 1), ("claude-sonnet-4.5", 1),
    ("claude-haiku-4.5", 0.33), ("gpt-5.4", 1), ("gpt-5.3-codex", 1), ("gpt-5.2-codex", 1),
    ("gpt-5.2", 1), ("gpt-5.4-mini", 0.33), ("gpt-5-mini", 0), ("gpt-4.1", 0)]

def getCopilotQuotaMultiplier (model : String) : ℚ :=
  (COPILOT_QUOTA_MULTIPLIERS.lookup model).getD 1

/-- `null` stands for a `SUM` over no rows. -/
structure ChatMetrics (Time : Type) where
  messageCount : ℕ
  userMessageCount : Option ℕ
  assistantMessageCount : Option ℕ
  totalInputTokens : ℤ
  totalOutputTokens : ℤ
  totalCostUsd : ℚ
  totalCopilotQuota : ℚ
  lastMessageAt : Option Time
  todosCounts : Option TodoCounts

/-- `SUM(CASE WHEN role = … THEN 1 ELSE 0 END)`. -/
def countRole (role : String) (messages : List (MessageRow Time)) : Option ℕ :=
  sumOf (messages.map fun m ↦ some (if m.role = role then 1 else 0))

/-- The usage records of messages, with the message. -/
def messageUsage (db : ChatDatabase Time) : List (UsageRow × MessageRow Time) :=
  innerJoin db.usageRecords db.messages fun usage m ↦ usage.chatMessageId = some m.id

/-- A message that was created later comes first. -/
def LaterMessage [LE Time] (m other : MessageRow Time) : Prop :=
  NullsFirst other.createdAt m.createdAt

/-- A snapshot that was created later comes first, and of one instant the one with the larger id. -/
def LaterTodo [LT Time] (row other : TodoRow Time) : Prop :=
  other.createdAt < row.createdAt ∨ other.createdAt = row.createdAt ∧ other.id ≤ row.id

/-- The snapshots of a chat come together, in this order. -/
def LaterByChat [LT Time] (row other : TodoRow Time) : Prop :=
  row.chatId < other.chatId ∨ row.chatId = other.chatId ∧ LaterTodo row other

variable [LinearOrder Time]

instance (m other : MessageRow Time) : Decidable (LaterMessage m other) :=
  inferInstanceAs (Decidable (NullsFirst _ _))

instance (row other : TodoRow Time) : Decidable (LaterTodo row other) :=
  inferInstanceAs (Decidable (_ ∨ _))

instance (row other : TodoRow Time) : Decidable (LaterByChat row other) :=
  inferInstanceAs (Decidable (_ ∨ _))

section

variable (parse : String → Option Json)

/-- `none` is an exception. -/
def getChatMetrics (db : ChatDatabase Time) (chatId : ChatId) : Option (ChatMetrics Time) :=
  let messages := db.messages.filter fun m ↦ m.chatId = some chatId
  let usage := (messageUsage db).filter fun row ↦ row.2.chatId = some chatId
  let copilotTurns := (messageUsage db).filter fun row ↦
    row.2.chatId = some chatId && row.1.provider = "github_copilot"
  let totalCopilotQuota := copilotTurns.foldl
    (fun sum row ↦ sum + getCopilotQuotaMultiplier row.1.model) 0
  let lastMessage := (orderBy LaterMessage messages).head?
  let latestTodos := (orderBy LaterTodo (db.todos.filter fun row ↦ row.chatId = chatId)).head?
  let todosCounts := match latestTodos with
    | none => some none
    | some row => snapshotCounts parse row
  todosCounts.map fun todosCounts ↦
    { messageCount := messages.length
      userMessageCount := some ((countRole "user" messages).getD 0)
      assistantMessageCount := some ((countRole "assistant" messages).getD 0)
      totalInputTokens := (sumOf (usage.map fun row ↦ row.1.inputTokens)).getD 0
      totalOutputTokens := (sumOf (usage.map fun row ↦ row.1.outputTokens)).getD 0
      totalCostUsd := (sumOf (usage.map fun row ↦ row.1.totalCostUsd)).getD 0
      totalCopilotQuota := totalCopilotQuota
      lastMessageAt := lastMessage.bind (·.createdAt)
      todosCounts := todosCounts }

/-- `inArray`, which no missing value is in. -/
def inArray (chatIds : List ChatId) : Option ChatId → Bool
  | none => false
  | some chatId => chatId ∈ chatIds

def zeroMetrics : ChatMetrics Time := ⟨0, some 0, some 0, 0, 0, 0, 0, none, none⟩

abbrev MetricsMap (Time : Type) := JsMap ChatId (ChatMetrics Time)

def seedMetrics (chatIds : List ChatId) : MetricsMap Time :=
  chatIds.foldl (fun result chatId ↦ result.set chatId zeroMetrics) JsMap.empty

def mergeMessages (db : ChatDatabase Time) (chatIds : List ChatId) :
    MetricsMap Time → MetricsMap Time :=
  mergeRows Prod.fst
    (fun group entry ↦
      { entry with
        messageCount := group.2.length
        userMessageCount := countRole "user" group.2
        assistantMessageCount := countRole "assistant" group.2
        lastMessageAt := maxOf (group.2.map (·.createdAt)) })
    (groupBy (·.chatId) (db.messages.filter fun m ↦ inArray chatIds m.chatId))

def mergeUsage (db : ChatDatabase Time) (chatIds : List ChatId) :
    MetricsMap Time → MetricsMap Time :=
  mergeRows Prod.fst
    (fun group entry ↦
      { entry with
        totalInputTokens := (sumOf (group.2.map fun row ↦ row.1.inputTokens)).getD 0
        totalOutputTokens := (sumOf (group.2.map fun row ↦ row.1.outputTokens)).getD 0
        totalCostUsd := (sumOf (group.2.map fun row ↦ row.1.totalCostUsd)).getD 0 })
    (groupBy (·.2.chatId) ((messageUsage db).filter fun row ↦ inArray chatIds row.2.chatId))

def mergeCopilot (db : ChatDatabase Time) (chatIds : List ChatId) :
    MetricsMap Time → MetricsMap Time :=
  mergeRows (·.2.chatId)
    (fun row entry ↦
      { entry with
        totalCopilotQuota := entry.totalCopilotQuota + getCopilotQuotaMultiplier row.1.model })
    ((messageUsage db).filter fun row ↦
      inArray chatIds row.2.chatId && row.1.provider = "github_copilot")

/-- Of the snapshots of a chat the first is counted. -/
def mergeTodos : List (TodoRow Time) → List ChatId → MetricsMap Time → Option (MetricsMap Time)
  | [], _, result => some result
  | row :: rest, seen, result =>
    if row.chatId ∈ seen then mergeTodos rest seen result
    else
      match result.get row.chatId with
      | none => mergeTodos rest (row.chatId :: seen) result
      | some _ =>
        match snapshotCounts parse row with
        | none => none
        | some none => mergeTodos rest (row.chatId :: seen) result
        | some (some counts) =>
          mergeTodos rest (row.chatId :: seen)
            (result.modify row.chatId fun entry ↦ { entry with todosCounts := some counts })

/-- `none` is an exception. -/
def getChatMetricsBatched (db : ChatDatabase Time) (chatIds : List ChatId) :
    Option (MetricsMap Time) :=
  if chatIds = [] then some JsMap.empty
  else
    let todoRows := orderBy LaterByChat (db.todos.filter fun row ↦ row.chatId ∈ chatIds)
    mergeTodos parse todoRows []
      (mergeCopilot db chatIds (mergeUsage db chatIds (mergeMessages db chatIds
        (seedMetrics chatIds))))

end

structure ChatContext where
  projectName : Option String
  workspaceName : Option String
  deriving DecidableEq

/-- The name of a row; an id of 0 is no id. -/
def selectName (rows : List NamedRow) (id : Option ℕ) : Option String :=
  match id with
  | none => none
  | some id => if id = 0 then none else (rows.find? fun row ↦ row.id = id).map (·.name)

omit [LinearOrder Time] in
def resolveChatContext (db : ChatDatabase Time) (chat : ChatRow) : ChatContext where
  projectName := selectName db.projects chat.projectId
  workspaceName := selectName db.workspaces chat.workspaceId

/-- The names of the rows with one of the ids. -/
def nameById (rows : List NamedRow) (ids : List ℕ) : JsMap ℕ String :=
  (rows.filter fun row ↦ row.id ∈ ids).foldl (fun names row ↦ names.set row.id row.name)
    JsMap.empty

def lookupName (names : JsMap ℕ String) (id : Option ℕ) : Option String :=
  match id with
  | none => none
  | some id => if id = 0 then none else names.get id

omit [LinearOrder Time] in
def resolveChatContextsBatched (db : ChatDatabase Time) (chatRows : List ChatRow) :
    JsMap ChatId ChatContext :=
  let projectIds := (chatRows.map (·.projectId)).reduceOption.dedup
  let workspaceIds := (chatRows.map (·.workspaceId)).reduceOption.dedup
  let projectNameById := nameById db.projects projectIds
  let workspaceNameById := nameById db.workspaces workspaceIds
  chatRows.foldl
    (fun result row ↦ result.set row.id
      ⟨lookupName projectNameById row.projectId, lookupName workspaceNameById row.workspaceId⟩)
    JsMap.empty

end Flockctl.Chats.Metrics
