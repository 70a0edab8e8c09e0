import Flockctl.Chats.Executor
import Flockctl.Chats.TurnSetup
import Flockctl.RemoteAuth.RateLimiter

/-!
# Sending a message

The two message endpoints check a request, save what the user has selected, insert the message, link
its attachments and claim the chat. They do the same things in different orders: the plain endpoint
saves the selection before it checks the attachments, and the streaming one inserts, links and
claims before it checks the options of the turn. A request has read its chat row before its body
arrived; from there to the claim nothing else runs.
-/

namespace Flockctl.Chats.Submission

open Ai Collections

abbrev AttachmentId := ℕ

abbrev MessageId := ℕ

/-- The columns of a chat row; the last two are selected by the user as are the key and the
model. -/
structure ChatColumns extends ChatRow where
  thinkingEnabled : Bool := true
  effort : Option String := none
  deriving DecidableEq

structure MessageRow where
  id : MessageId
  chatId : ChatId
  role : String
  content : String
  deriving DecidableEq

structure AttachmentRow where
  chatId : ChatId
  messageId : Option MessageId := none
  sizeBytes : ℕ
  deriving DecidableEq

structure ChatStore where
  chats : JsMap ChatId ChatColumns := JsMap.empty
  messages : List MessageRow := []
  nextMessageId : MessageId := 1
  attachments : JsMap AttachmentId AttachmentRow := JsMap.empty
  executor : ChatExecutor := {}

/-- `body.content`; the database stores some values that are no text, and refuses the others. -/
inductive ContentField
  | falsy
  | text (value : String)
  | other (stored : Option String)
  deriving DecidableEq

/-- A field that is to be a text, a flag or `null`. -/
inductive OptionField
  | absent
  | null
  | text (value : String)
  | flag (value : Bool)
  | other
  deriving DecidableEq

/-- `body.attachment_ids`; what is no array of integers is malformed. -/
inductive AttachmentIdsField
  | missing
  | malformed
  | ids (values : List ℤ)
  deriving DecidableEq

structure MessageBody where
  content : ContentField
  role : Option String := none
  model : Option String := none
  keyId : Option ℤ := none
  thinking_enabled : OptionField := .absent
  thinkingEnabled : OptionField := .absent
  effort : OptionField := .absent
  attachment_ids : AttachmentIdsField := .missing
  deriving DecidableEq

inductive KeyIdSource
  | request
  | stored
  | default
  deriving DecidableEq

/-- The validation errors of the endpoints. -/
inductive ChatError
  | contentRequired
  | contentTooLarge (length : ℕ)
  | keyNotAllowed (keyId : KeyId) (allowedIds : List KeyId) (source : KeyIdSource)
  | thinkingNotBoolean
  | effortInvalid
  | invalidAttachmentIds
  | tooManyAttachments (count : ℕ)
  | attachmentMissing
  | foreignAttachment (id : AttachmentId) (chatId : ChatId)
  | alreadyLinked (id : AttachmentId) (messageId : MessageId)
  | attachmentsTooLarge (totalBytes : ℕ)
  deriving DecidableEq

def MAX_MESSAGE_CONTENT_BYTES : ℕ := 1048576

def MAX_ATTACHMENTS_PER_MESSAGE : ℕ := 10

def MAX_MESSAGE_ATTACHMENTS_TOTAL_BYTES : ℕ := 30 * 1024 * 1024

def VALID_EFFORT_LEVELS : List String := ["low", "medium", "high", "xhigh", "max"]

def checkContent (body : MessageBody) : Except ChatError Unit :=
  match body.content with
  | .falsy => .error .contentRequired
  | .text value =>
    if value = "" then .error .contentRequired
    else if MAX_MESSAGE_CONTENT_BYTES < RemoteAuth.utf16Length value then
      .error (.contentTooLarge (RemoteAuth.utf16Length value))
    else .ok ()
  | .other _ => .ok ()

def classifyKeyIdSource (bodyKeyId : Option ℤ) (storedKeyId : Option KeyId) : KeyIdSource :=
  if (coerceKeyId bodyKeyId).isSome then .request
  else if (truthyId storedKeyId).isSome then .stored
  else .default

def assertKeyAllowedForChat (scope : ChatScope) (chat : ChatRow) (keyId : Option KeyId)
    (source : KeyIdSource) : Except ChatError Unit :=
  match truthyId keyId with
  | none => .ok ()
  | some keyId =>
    let allowedIds := resolveChatAllowedKeyIds scope.tables chat
    if allowedIds = [] ∨ keyId ∈ allowedIds then .ok ()
    else .error (.keyNotAllowed keyId allowedIds source)

/-- The key of the turn, which the whitelist has to allow. -/
def checkKey (scope : ChatScope) (chat : ChatColumns) (body : MessageBody) :
    Except ChatError (Option KeyId) := do
  let keyId := scope.resolveChatKeyId body.keyId chat.toChatRow
  assertKeyAllowedForChat scope chat.toChatRow keyId
    (classifyKeyIdSource body.keyId chat.aiProviderKeyId)
  return keyId

/-- The flag that is given, if one is. -/
def parseThinkingEnabledBody (body : MessageBody) : Except ChatError (Option Bool) :=
  match if body.thinking_enabled = .absent then body.thinkingEnabled else body.thinking_enabled with
  | .absent => .ok none
  | .flag value => .ok (some value)
  | _ => .error .thinkingNotBoolean

/-- The level that is given, if one is; `null` clears the stored one. -/
def parseEffortBody (body : MessageBody) : Except ChatError (Option (Option String)) :=
  match body.effort with
  | .absent => .ok none
  | .null => .ok (some none)
  | .text value =>
    if value ∈ VALID_EFFORT_LEVELS then .ok (some (some value)) else .error .effortInvalid
  | _ => .error .effortInvalid

/-- The options of a turn. -/
def checkOptions (body : MessageBody) : Except ChatError (Option Bool × Option (Option String)) := do
  let thinkingEnabled ← parseThinkingEnabledBody body
  let effort ← parseEffortBody body
  return (thinkingEnabled, effort)

def parseAttachmentIds (body : MessageBody) : Except ChatError (List AttachmentId) :=
  match body.attachment_ids with
  | .missing => .ok []
  | .malformed => .error .invalidAttachmentIds
  | .ids values =>
    if (∀ value ∈ values, 0 < value) ∧ values.length ≤ MAX_ATTACHMENTS_PER_MESSAGE then
      .ok (values.map Int.toNat)
    else .error .invalidAttachmentIds

/-- The rows with the ids, of different ids. -/
def attachmentRows (s : ChatStore) (ids : List AttachmentId) :
    List (AttachmentId × AttachmentRow) :=
  s.attachments.entries.filter fun entry ↦ entry.1 ∈ ids

/-- The first row that belongs to another chat or is linked already. -/
def firstUnusable (chatId : ChatId) : List (AttachmentId × AttachmentRow) → Option ChatError
  | [] => none
  | (id, row) :: rest =>
    if row.chatId ≠ chatId then some (.foreignAttachment id chatId)
    else
      match row.messageId with
      | some messageId => some (.alreadyLinked id messageId)
      | none => firstUnusable chatId rest

def validateAttachmentsForMessage (s : ChatStore) (chatId : ChatId)
    (attachmentIds : List AttachmentId) : Except ChatError Unit :=
  if attachmentIds = [] then .ok ()
  else if MAX_ATTACHMENTS_PER_MESSAGE < attachmentIds.length then
    .error (.tooManyAttachments attachmentIds.length)
  else
    let uniqueIds := attachmentIds.dedup
    let rows := attachmentRows s uniqueIds
    if rows.length ≠ uniqueIds.length then .error .attachmentMissing
    else
      match firstUnusable chatId rows with
      | some error => .error error
      | none =>
        let totalBytes := (rows.map fun entry ↦ entry.2.sizeBytes).sum
        if MAX_MESSAGE_ATTACHMENTS_TOTAL_BYTES < totalBytes then
          .error (.attachmentsTooLarge totalBytes)
        else .ok ()

/-- The ids of the attachments of the message, which have to be free ones of the chat. -/
def checkAttachments (s : ChatStore) (chatId : ChatId) (body : MessageBody) :
    Except ChatError (List AttachmentId) := do
  let attachmentIds ← parseAttachmentIds body
  validateAttachmentsForMessage s chatId attachmentIds
  return attachmentIds

structure Selection where
  keyId : Option KeyId
  model : String
  thinkingEnabled : Option Bool
  effort : Option (Option String)

/-- The columns that differ from those the request has read are written to the row. -/
def persistChatSelection (scope : ChatScope) (chat : ChatColumns) (selection : Selection)
    (row : ChatColumns) : ChatColumns :=
  { row with
    aiProviderKeyId :=
      match selection.keyId with
      | none => row.aiProviderKeyId
      | some keyId =>
        if some keyId ≠ chat.aiProviderKeyId ∧ scope.keys.has keyId then some keyId
        else row.aiProviderKeyId
    model :=
      if selection.model ≠ "" ∧ some selection.model ≠ chat.model then some selection.model
      else row.model
    thinkingEnabled :=
      match selection.thinkingEnabled with
      | none => row.thinkingEnabled
      | some value => if value ≠ chat.thinkingEnabled then value else row.thinkingEnabled
    effort :=
      match selection.effort with
      | none => row.effort
      | some value => if value ≠ chat.effort then value else row.effort }

namespace ChatStore

def persist (s : ChatStore) (scope : ChatScope) (chatId : ChatId) (chat : ChatColumns)
    (selection : Selection) : ChatStore :=
  { s with chats := s.chats.modify chatId (persistChatSelection scope chat selection) }

/-- The database refuses a message of a chat it does not have, and a value it cannot store. -/
def insertMessage (s : ChatStore) (chatId : ChatId) (role : String) (content : ContentField) :
    Option (ChatStore × MessageRow) :=
  let stored := match content with
    | .falsy => none
    | .text value => some value
    | .other stored => stored
  if s.chats.has chatId then
    stored.map fun text ↦
      let row := ⟨s.nextMessageId, chatId, role, text⟩
      ({ s with messages := s.messages ++ [row], nextMessageId := s.nextMessageId + 1 }, row)
  else none

def linkAttachmentsToMessage (s : ChatStore) (messageId : MessageId)
    (attachmentIds : List AttachmentId) : ChatStore :=
  { s with
    attachments := s.attachments.mapWithKey fun id row ↦
      if id ∈ attachmentIds then { row with messageId := some messageId } else row }

def claim (s : ChatStore) (chatId : ChatId) : ChatStore :=
  { s with executor := s.executor.claim chatId }

end ChatStore

/-- The answer, or the row of the message that the request goes on with; an error that is no
validation error is a failure. -/
inductive Response
  | invalid (error : ChatError)
  | failed
  | accepted (message : MessageRow)

/-- A request to one of the endpoints, with the chat row it has read. -/
structure Request where
  streamed : Bool
  chatId : ChatId
  chat : ChatColumns
  body : MessageBody

variable (scope : ChatScope)

/-- What the user has selected for the turn. -/
def selectionOf (request : Request) (keyId : Option KeyId)
    (options : Option Bool × Option (Option String)) : Selection where
  keyId := keyId
  model := scope.turnModel request.streamed request.chat.toChatRow { model := request.body.model }
  thinkingEnabled := options.1
  effort := options.2

/-- The message is inserted and its attachments are linked. -/
def saveMessage (s : ChatStore) (chatId : ChatId) (role : String) (content : ContentField)
    (attachmentIds : List AttachmentId) : Option (ChatStore × MessageRow) :=
  (s.insertMessage chatId role content).map fun saved ↦
    (saved.1.linkAttachmentsToMessage saved.2.id attachmentIds, saved.2)

/-- What the plain endpoint checks before it saves the selection. -/
def plainChecks (request : Request) : Except ChatError Selection := do
  checkContent request.body
  let keyId ← checkKey scope request.chat request.body
  let options ← checkOptions request.body
  return selectionOf scope request keyId options

/-- `POST /chats/:id/messages`, up to the claim. -/
def postMessages (s : ChatStore) (request : Request) : ChatStore × Response :=
  match plainChecks scope request with
  | .error error => (s, .invalid error)
  | .ok selection =>
    let persisted := s.persist scope request.chatId request.chat selection
    match checkAttachments persisted request.chatId request.body with
    | .error error => (persisted, .invalid error)
    | .ok attachmentIds =>
      let role := request.body.role.getD "user"
      match saveMessage persisted request.chatId role request.body.content attachmentIds with
      | none => (persisted, .failed)
      | some (saved, message) =>
        if role ≠ "user" then (saved, .accepted message)
        else (saved.claim request.chatId, .accepted message)

/-- What the streaming endpoint checks before it inserts the message. -/
def streamChecks (s : ChatStore) (request : Request) :
    Except ChatError (Option KeyId × List AttachmentId) := do
  checkContent request.body
  let keyId ← checkKey scope request.chat request.body
  let attachmentIds ← checkAttachments s request.chatId request.body
  return (keyId, attachmentIds)

/-- `POST /chats/:id/messages/stream`, up to the session. -/
def postMessagesStream (s : ChatStore) (request : Request) : ChatStore × Response :=
  match streamChecks scope s request with
  | .error error => (s, .invalid error)
  | .ok (keyId, attachmentIds) =>
    match saveMessage s request.chatId "user" request.body.content attachmentIds with
    | none => (s, .failed)
    | some (saved, message) =>
      let claimed := saved.claim request.chatId
      match checkOptions request.body with
      | .error error => (claimed, .invalid error)
      | .ok options =>
        (claimed.persist scope request.chatId request.chat (selectionOf scope request keyId options),
          .accepted message)

def handle (s : ChatStore) (request : Request) : ChatStore × Response :=
  if request.streamed then postMessagesStream scope s request else postMessages scope s request

def step (s : ChatStore) (request : Request) : ChatStore := (handle scope s request).1

end Flockctl.Chats.Submission
