import Flockctl.Ai.KeySelection
import Flockctl.Collections.JsMap
import Flockctl.Permissions.Resolver
import Mathlib.Algebra.GroupWithZero.Nat

/-!
# The set-up of a chat turn

What the message endpoints give to the agent session of a turn, and what the wake-up after a rate
limit gives to the session that repeats it: the prompt, the model, the key, the system prompt, the
permission mode and the prior messages. The wake-up sees the chat row as the endpoint has saved it
and the history as the parked turn has left it. A usage record counts for a chat when it is tied to
a message of that chat.
-/

namespace Flockctl.Chats

open Ai Collections Permissions

inductive Role
  | user
  | assistant
  | thinking
  | tool
  | other (name : String)
  deriving DecidableEq, Repr

structure Attachment where
  path : String
  mimeType : String
  filename : String
  deriving DecidableEq, Repr

structure ChatMessage where
  id : ℕ
  role : Role
  content : String
  createdAt : ℤ
  attachments : List Attachment := []
  deriving DecidableEq, Repr

/-- A `ContentBlockParam`. -/
inductive ContentBlock
  | text (text : String)
  | image (mediaType data : String)
  | pdf (data title : String)
  | plainText (data title : String)
  deriving DecidableEq, Repr

inductive MessageContent
  | text (text : String)
  | blocks (blocks : List ContentBlock)
  deriving DecidableEq, Repr

/-- What the files of attachments give: their bytes in base 64, and the text of valid UTF-8, cut at
the limit. A file that cannot be read gives nothing. -/
structure AttachmentFiles where
  readBase64Cached : String → Option String
  readText : String → Option String

def ANTHROPIC_IMAGE_MIME_TYPES : List String :=
  ["image/png", "image/jpeg", "image/gif", "image/webp"]

def isTextLikeMime (mime : String) : Bool :=
  mime.startsWith "text/" || mime == "application/xml" || mime == "application/json" ||
    mime == "application/sql"

/-- The block of one attachment. -/
def attachmentBlock (files : AttachmentFiles) (row : Attachment) : Option ContentBlock :=
  if row.mimeType ∈ ANTHROPIC_IMAGE_MIME_TYPES then
    (files.readBase64Cached row.path).map (.image row.mimeType)
  else if row.mimeType = "application/pdf" then
    (files.readBase64Cached row.path).map (.pdf · row.filename)
  else if isTextLikeMime row.mimeType then
    (files.readText row.path).map (.plainText · row.filename)
  else none

def buildMessageContent (files : AttachmentFiles) (text : String) (attachments : List Attachment) :
    MessageContent :=
  match attachments.filterMap (attachmentBlock files) with
  | [] => .text text
  | first :: rest => .blocks (.text text :: first :: rest)

def MAX_CHAT_MESSAGES : ℕ := 50

/-- `ORDER BY created_at`: the index on the chat and the time lists rows of one second by id. -/
def orderByCreatedAt (rows : List ChatMessage) : List ChatMessage :=
  rows.mergeSort fun earlier later ↦ decide (earlier.createdAt ≤ later.createdAt)

/-- The last messages; the first of a window that was cut goes if it is not the user's. -/
def trimHistory (history : List ChatMessage) : List ChatMessage :=
  if MAX_CHAT_MESSAGES < history.length then
    match history.drop (history.length - MAX_CHAT_MESSAGES) with
    | [] => []
    | first :: rest => if first.role = .user then first :: rest else rest
  else history

/-- A message of the history, with the id of its row, which is not sent. -/
structure PriorMessage where
  row : ℕ
  role : Role
  content : MessageContent
  deriving DecidableEq, Repr

def priorMessage (files : AttachmentFiles) (m : ChatMessage) : PriorMessage where
  row := m.id
  role := m.role
  content := if m.role = .user then buildMessageContent files m.content m.attachments
    else .text m.content

def loadPriorMessages (files : AttachmentFiles) (rows : List ChatMessage) : List PriorMessage :=
  (trimHistory (orderByCreatedAt rows)).map (priorMessage files)

/-- `ORDER BY created_at DESC LIMIT 1` over the user messages. -/
def lastUserMessage (rows : List ChatMessage) : Option ChatMessage :=
  (orderByCreatedAt (rows.filter (·.role == .user))).getLast?

/-- The columns of a chat row the set-up reads. -/
structure ChatRow where
  projectId : Option ProjectId := none
  workspaceId : Option WorkspaceId := none
  aiProviderKeyId : Option KeyId := none
  model : Option String := none
  permissionMode : Option PermissionMode := none
  entityType : Option String := none
  entityId : Option String := none
  deriving DecidableEq, Repr

structure EntityContext where
  entityType : Option String := none
  entityId : Option String := none
  milestoneId : Option String := none
  sliceId : Option String := none
  deriving DecidableEq, Repr

/-- The body of a message request, as far as the set-up reads it. -/
structure MessageBody where
  model : Option String := none
  keyId : Option ℤ := none
  system : Option String := none
  entityContext : EntityContext := {}
  deriving DecidableEq, Repr

/-- The keys, the whitelists and the configuration around a chat. The builders of system prompts
give nothing where the project or the workspace of the chat has no path. -/
structure ChatScope where
  keys : JsMap KeyId AiKey := JsMap.empty
  tables : AiTables := {}
  defaultKeyId : Option KeyId := none
  defaultModel : String := "claude-sonnet-4-6"
  projectModel : Option String := none
  projectMode : Option PermissionMode := none
  workspaceMode : Option PermissionMode := none
  buildEntityAwareSystemPrompt :
    String → String → Option String → Option String → Option String := fun _ _ _ _ ↦ none
  buildWorkspaceSystemPrompt : Option String := none

def coerceKeyId : Option ℤ → Option KeyId
  | some (.ofNat (n + 1)) => some (n + 1)
  | _ => none

/-- The whitelist of a workspace. -/
def workspaceAllowedKeyIds (tables : AiTables) (workspaceId : WorkspaceId) : List KeyId :=
  match tables.workspaces.find? (·.id == workspaceId) with
  | none => []
  | some workspace => safeParseJsonArray workspace.allowedKeyIds

/-- `resolveAllowedKeyIds` on a chat, which has no whitelist of its own and may have a workspace. -/
def resolveChatAllowedKeyIds (tables : AiTables) (chat : ChatRow) : List KeyId :=
  let fallback := match truthyId chat.workspaceId with
    | none => []
    | some workspaceId => workspaceAllowedKeyIds tables workspaceId
  match truthyId chat.projectId with
  | none => fallback
  | some projectId =>
    match tables.projects.find? (·.id == projectId) with
    | none => fallback
    | some project =>
      match project.allowedKeyIds with
      | .text parsed => safeParseJsonArray (.text parsed)
      | .absent =>
        match truthyId project.workspaceId with
        | none => []
        | some workspaceId => workspaceAllowedKeyIds tables workspaceId

namespace ChatScope

variable (scope : ChatScope)

def isActiveKey (keyId : KeyId) : Bool :=
  match scope.keys.get keyId with
  | none => false
  | some key => key.isActive

/-- The active keys by priority. -/
def activeKeyIds : List KeyId :=
  ((scope.keys.entries.filter fun entry ↦ entry.2.isActive).mergeSort
    fun left right ↦ priorityLE left.2 right.2).map Prod.fst

def resolveDefaultKeyForChat (chat : ChatRow) : Option KeyId :=
  let allowedIds := resolveChatAllowedKeyIds scope.tables chat
  if allowedIds.isEmpty then scope.defaultKeyId.filter scope.isActiveKey
  else
    match scope.defaultKeyId.filter fun keyId ↦
        allowedIds.contains keyId && scope.isActiveKey keyId with
    | some keyId => some keyId
    | none => scope.activeKeyIds.find? allowedIds.contains

def resolveChatKeyId (bodyKeyId : Option ℤ) (chat : ChatRow) : Option KeyId :=
  match coerceKeyId bodyKeyId with
  | some keyId => some keyId
  | none =>
    match (truthyId chat.aiProviderKeyId).filter scope.isActiveKey with
    | some keyId => some keyId
    | none => scope.resolveDefaultKeyForChat chat

/-- The key and the model the endpoint saves for the next turn. -/
def persistChatSelection (chat : ChatRow) (keyId : Option KeyId) (model : String) : ChatRow :=
  { chat with
    aiProviderKeyId :=
      match keyId with
      | none => chat.aiProviderKeyId
      | some keyId => if scope.keys.has keyId then some keyId else chat.aiProviderKeyId
    model := if model = "" then chat.model else some model }

def DEFAULT_SYSTEM_PROMPT : String := "You are a helpful AI assistant."

/-- A text that is given and not empty. -/
def truthyText : Option String → Option String
  | none => none
  | some text => if text = "" then none else some text

def withBase (prompt : String) : String := prompt ++ "\n\n" ++ DEFAULT_SYSTEM_PROMPT

def resolveChatSystemPrompt (chat : ChatRow) (body : MessageBody) : String :=
  match body.system with
  | some system => system
  | none =>
    let entity := do
      let entityType ← truthyText (chat.entityType.or body.entityContext.entityType)
      let entityId ← truthyText (chat.entityId.or body.entityContext.entityId)
      let _ ← truthyId chat.projectId
      truthyText (scope.buildEntityAwareSystemPrompt entityType entityId
        body.entityContext.milestoneId body.entityContext.sliceId)
    let workspace := do
      let _ ← truthyId chat.workspaceId
      truthyText scope.buildWorkspaceSystemPrompt
    match entity.or workspace with
    | some prompt => withBase prompt
    | none => DEFAULT_SYSTEM_PROMPT

def resolvePermissionMode (chat : ChatRow) : PermissionMode :=
  ((chat.permissionMode.or scope.projectMode).or scope.workspaceMode).getD .auto

/-- The model of a message turn; only the streaming endpoint looks at the project. -/
def turnModel (streamed : Bool) (chat : ChatRow) (body : MessageBody) : String :=
  ((body.model.or chat.model).or (if streamed then scope.projectModel else none)).getD
    scope.defaultModel

def resumeModel (chat : ChatRow) : String :=
  (chat.model.or scope.projectModel).getD "claude-sonnet-4-5-20250929"

end ChatScope

/-- The options of an `AgentSession` that are compared here. -/
structure SessionOptions where
  prompt : MessageContent
  model : String
  keyId : Option KeyId
  system : String
  permissionMode : PermissionMode
  priorMessages : List PriorMessage
  deriving DecidableEq, Repr

/-- A turn that was parked, at the time its chat wakes up: the messages before the user's, the
user's, and the ones written since, be it by the turn or by anything else. A row gets the next id
and the reading of the clock when it is written. -/
structure ParkedTurn where
  streamed : Bool
  chat : ChatRow
  body : MessageBody
  before : List ChatMessage
  message : ChatMessage
  written : List ChatMessage
  user : message.role = .user
  distinct : (before ++ message :: written).Pairwise fun earlier later ↦ earlier.id < later.id
  chronological : (before ++ message :: written).Pairwise
    fun earlier later ↦ earlier.createdAt ≤ later.createdAt

namespace ParkedTurn

variable (turn : ParkedTurn) (scope : ChatScope) (files : AttachmentFiles)

def keyId : Option KeyId := scope.resolveChatKeyId turn.body.keyId turn.chat

def model : String := scope.turnModel turn.streamed turn.chat turn.body

/-- The chat row after the request. -/
def savedChat : ChatRow :=
  scope.persistChatSelection turn.chat (turn.keyId scope) (turn.model scope)

/-- What the endpoint gave to the session of the turn. -/
def sent : SessionOptions where
  prompt := buildMessageContent files turn.message.content turn.message.attachments
  model := turn.model scope
  keyId := turn.keyId scope
  system := scope.resolveChatSystemPrompt turn.chat turn.body
  permissionMode := scope.resolvePermissionMode turn.chat
  priorMessages := (loadPriorMessages files (turn.before ++ [turn.message])).dropLast

/-- What `resumeChatAfterRateLimit` gives to the session that repeats the turn, if there is a user
message. -/
def resumed : Option SessionOptions :=
  let rows := turn.before ++ turn.message :: turn.written
  (lastUserMessage rows).map fun lastUser ↦
    { prompt := .text lastUser.content
      model := scope.resumeModel (turn.savedChat scope)
      keyId := scope.resolveChatKeyId none (turn.savedChat scope)
      system := scope.resolveChatSystemPrompt (turn.savedChat scope) {}
      permissionMode := scope.resolvePermissionMode (turn.savedChat scope)
      priorMessages := (loadPriorMessages files rows).dropLast }

end ParkedTurn

structure TokenUsage where
  inputTokens : ℕ
  outputTokens : ℕ
  deriving DecidableEq, Repr

structure UsageRecord extends TokenUsage where
  chatMessageId : Option ℕ
  deriving DecidableEq, Repr

/-- The row both paths insert after a run, unless it used no tokens. -/
def recordUsage (chatMessageId : Option ℕ) (usage : TokenUsage) (records : List UsageRecord) :
    List UsageRecord :=
  if 0 < usage.inputTokens ∨ 0 < usage.outputTokens then ⟨usage, chatMessageId⟩ :: records
  else records

/-- The token totals of `getChatMetrics`, from the records that join to a message of the chat. -/
def totalTokens (messageIds : List ℕ) (records : List UsageRecord) : TokenUsage :=
  let joined := records.filter fun record ↦ record.chatMessageId.any messageIds.contains
  ⟨(joined.map (·.inputTokens)).sum, (joined.map (·.outputTokens)).sum⟩

/-- The totals grow by what the run has used. -/
def countsTokens (messageIds : List ℕ) (chatMessageId : Option ℕ) (usage : TokenUsage)
    (records : List UsageRecord) : Bool :=
  totalTokens messageIds (recordUsage chatMessageId usage records) ==
    ⟨(totalTokens messageIds records).inputTokens + usage.inputTokens,
      (totalTokens messageIds records).outputTokens + usage.outputTokens⟩

end Flockctl.Chats
