import Flockctl.Chats.TurnSetup

/-!
# The resumed turn against the parked one

The wake-up repeats the parked turn exactly when nothing was written to the chat since the user
message, no attachment of the message gives a content block, the model that was used is not empty,
the request named no key or an active one, and the chat row alone gives the system prompt. The
tokens of the run are counted exactly when it uses none.
-/

namespace Flockctl.Chats

open Ai Collections Permissions

theorem orderByCreatedAt_of_chronological {rows : List ChatMessage}
    (hrows : rows.Pairwise fun earlier later ↦ earlier.createdAt ≤ later.createdAt) :
    orderByCreatedAt rows = rows := by
  apply List.mergeSort_of_pairwise
  exact hrows.imp fun hle ↦ decide_eq_true hle

/-- The window keeps the last message and, of those before it, the latest. -/
theorem trimHistory_concat (front : List ChatMessage) (last : ChatMessage) :
    ∃ kept, kept <:+ front ∧ (front ≠ [] → kept ≠ []) ∧
      trimHistory (front ++ [last]) = kept ++ [last] := by
  unfold trimHistory
  split
  · rename_i hlong
    rw [List.length_append, List.length_singleton] at hlong ⊢
    have hdrop : front.length + 1 - MAX_CHAT_MESSAGES ≤ front.length := by
      unfold MAX_CHAT_MESSAGES
      omega
    rw [List.drop_append_of_le_length hdrop]
    cases hwindow : front.drop (front.length + 1 - MAX_CHAT_MESSAGES) with
    | nil =>
      have hlength := congrArg List.length hwindow
      rw [List.length_drop, List.length_nil] at hlength
      unfold MAX_CHAT_MESSAGES at hlong hlength
      omega
    | cons first rest =>
      have hsuffix : first :: rest <:+ front := hwindow ▸ List.drop_suffix _ _
      dsimp only [List.cons_append]
      split
      · exact ⟨first :: rest, hsuffix, fun _ ↦ List.cons_ne_nil _ _, rfl⟩
      · refine ⟨rest, (List.suffix_cons first rest).trans hsuffix, fun _ hnil ↦ ?_, rfl⟩
        have hlength := congrArg List.length hwindow
        rw [List.length_drop, hnil, List.length_singleton] at hlength
        unfold MAX_CHAT_MESSAGES at hlong hlength
        omega
  · exact ⟨front, List.suffix_rfl, id, rfl⟩

/-- The prior messages of a turn whose rows end with the given one. -/
theorem priorMessages_concat (files : AttachmentFiles) {front : List ChatMessage}
    {last : ChatMessage} (hrows : (front ++ [last]).Pairwise
      fun earlier later ↦ earlier.createdAt ≤ later.createdAt) :
    ∃ kept, kept <:+ front ∧ (front ≠ [] → kept ≠ []) ∧
      (loadPriorMessages files (front ++ [last])).dropLast = kept.map (priorMessage files) := by
  obtain ⟨kept, hsuffix, hnonempty, htrim⟩ := trimHistory_concat front last
  refine ⟨kept, hsuffix, hnonempty, ?_⟩
  rw [loadPriorMessages, orderByCreatedAt_of_chronological hrows, htrim, List.map_append,
    List.map_singleton, List.dropLast_concat]

theorem lastUserMessage_concat {front : List ChatMessage} {last : ChatMessage}
    (hrows : (front ++ [last]).Pairwise fun earlier later ↦ earlier.createdAt ≤ later.createdAt)
    (huser : last.role = .user) : lastUserMessage (front ++ [last]) = some last := by
  have hfilter : (front ++ [last]).filter (·.role == .user) =
      front.filter (·.role == .user) ++ [last] := by
    simp [List.filter_append, huser]
  rw [lastUserMessage, orderByCreatedAt_of_chronological (hrows.filter _), hfilter,
    List.getLast?_concat]

namespace ParkedTurn

variable (turn : ParkedTurn) (scope : ChatScope) (files : AttachmentFiles)

/-- The prior messages are those of the parked turn exactly when nothing was written since. -/
theorem priorMessages_eq_iff :
    (loadPriorMessages files (turn.before ++ turn.message :: turn.written)).dropLast =
        (loadPriorMessages files (turn.before ++ [turn.message])).dropLast ↔
      turn.written = [] := by
  constructor
  · intro hsame
    rcases List.eq_nil_or_concat turn.written with hnone | ⟨written, last, hlast⟩
    · exact hnone
    · exfalso
      have hrows : turn.before ++ turn.message :: turn.written =
          (turn.before ++ turn.message :: written) ++ [last] := by
        rw [hlast]
        simp
      have hsent : (turn.before ++ [turn.message]).Pairwise
          fun earlier later ↦ earlier.createdAt ≤ later.createdAt := by
        refine turn.chronological.sublist ?_
        exact List.Sublist.append_left (List.singleton_sublist.mpr List.mem_cons_self) _
      obtain ⟨later, hlater, hnonempty, hresumed⟩ :=
        priorMessages_concat files (hrows ▸ turn.chronological)
      obtain ⟨earlier, hearlier, -, hparked⟩ := priorMessages_concat files hsent
      rw [hrows, hresumed, hparked] at hsame
      -- The last prior message of the resumed turn is the user's or was written after it.
      have hkept : later ≠ [] := hnonempty (by simp)
      have hend : later.getLast hkept ∈ turn.message :: written := by
        rw [hlater.getLast hkept, List.getLast_append_of_ne_nil _ (List.cons_ne_nil _ _)]
        exact List.getLast_mem _
      have hrow : (later.getLast hkept).id ∈
          (earlier.map (priorMessage files)).map PriorMessage.row := by
        rw [← hsame, List.map_map]
        exact List.mem_map.mpr ⟨_, List.getLast_mem hkept, rfl⟩
      rw [List.map_map] at hrow
      obtain ⟨old, hold, hid⟩ := List.mem_map.mp hrow
      have hwritten : later.getLast hkept ∈ turn.message :: turn.written := by
        rw [hlast, List.concat_eq_append, ← List.cons_append]
        exact List.mem_append_left _ hend
      have hlt := (List.pairwise_append.mp turn.distinct).2.2 old (hearlier.subset hold) _ hwritten
      exact absurd hid (Nat.ne_of_lt hlt)
  · intro hwritten
    rw [hwritten]

/-- Without attachments that give blocks the prompt is the text. -/
theorem buildMessageContent_eq_text_iff (text : String) (attachments : List Attachment) :
    buildMessageContent files text attachments = .text text ↔
      ∀ attachment ∈ attachments, attachmentBlock files attachment = none := by
  rw [← List.filterMap_eq_nil_iff]
  unfold buildMessageContent
  split
  · rename_i hnil
    exact ⟨fun _ ↦ hnil, fun _ ↦ rfl⟩
  · rename_i first rest hcons
    rw [hcons]
    exact ⟨nofun, nofun⟩

end ParkedTurn

namespace ChatScope

variable {scope : ChatScope} {chat : ChatRow}

theorem isActiveKey_eq_true_iff (keyId : KeyId) :
    scope.isActiveKey keyId = true ↔
      ∃ key, scope.keys.get keyId = some key ∧ key.isActive = true := by
  unfold isActiveKey
  cases scope.keys.get keyId <;> simp

/-- A default key is active. -/
theorem isActiveKey_of_default {keyId : KeyId}
    (hdefault : scope.resolveDefaultKeyForChat chat = some keyId) :
    scope.isActiveKey keyId = true := by
  unfold resolveDefaultKeyForChat at hdefault
  dsimp only at hdefault
  split at hdefault
  · exact (Option.filter_eq_some_iff.mp hdefault).2
  · split at hdefault
    · rename_i found hfound
      cases hdefault
      have hboth := (Option.filter_eq_some_iff.mp hfound).2
      exact (Bool.and_eq_true_iff.mp hboth).2
    · have hmem := List.mem_of_find?_eq_some hdefault
      obtain ⟨⟨id, key⟩, hentry, rfl⟩ := List.mem_map.mp hmem
      have hfiltered := List.mem_filter.mp ((List.mergeSort_perm _ _).mem_iff.mp hentry)
      exact (isActiveKey_eq_true_iff id).mpr
        ⟨key, (scope.keys.mem_entries_iff id key).mp hfiltered.1, hfiltered.2⟩

/-- The key of a turn whose request names none is active. -/
theorem isActiveKey_of_resolved {keyId : KeyId}
    (hkey : scope.resolveChatKeyId none chat = some keyId) : scope.isActiveKey keyId = true := by
  unfold resolveChatKeyId at hkey
  simp only [coerceKeyId] at hkey
  split at hkey
  · rename_i found hfound
    cases hkey
    exact (Option.filter_eq_some_iff.mp hfound).2
  · exact isActiveKey_of_default hkey

theorem resolveChatKeyId_none : scope.resolveChatKeyId none chat =
    ((truthyId chat.aiProviderKeyId).filter scope.isActiveKey).or
      (scope.resolveDefaultKeyForChat chat) := by
  unfold resolveChatKeyId
  simp only [coerceKeyId]
  cases (truthyId chat.aiProviderKeyId).filter scope.isActiveKey <;> rfl

theorem resolveChatKeyId_of_unnamed {bodyKeyId : Option ℤ} (hbody : coerceKeyId bodyKeyId = none) :
    scope.resolveChatKeyId bodyKeyId chat = scope.resolveChatKeyId none chat := by
  unfold resolveChatKeyId
  rw [hbody]
  rfl

theorem aiProviderKeyId_persist_of_active {keyId : KeyId} {model : String}
    (hactive : scope.isActiveKey keyId = true) :
    (scope.persistChatSelection chat (some keyId) model).aiProviderKeyId = some keyId := by
  obtain ⟨key, hkey, -⟩ := (isActiveKey_eq_true_iff keyId).mp hactive
  have hhas : scope.keys.has keyId = true := (scope.keys.has_eq_true_iff keyId).mpr ⟨key, hkey⟩
  exact if_pos hhas

/-- A saved key that is active is taken again. -/
theorem resolveChatKeyId_of_saved {keyId : KeyId} (hpositive : 0 < keyId)
    (hsaved : chat.aiProviderKeyId = some keyId) (hactive : scope.isActiveKey keyId = true) :
    scope.resolveChatKeyId none chat = some keyId := by
  obtain ⟨n, rfl⟩ := Nat.exists_eq_succ_of_ne_zero hpositive.ne'
  have hfilter : (some (n + 1)).filter scope.isActiveKey = some (n + 1) :=
    Option.filter_eq_some_iff.mpr ⟨rfl, hactive⟩
  rw [resolveChatKeyId_none, hsaved, truthyId, hfilter]
  rfl

variable (scope chat) in
/-- The key is the same in the next turn exactly when the request named none or an active one. -/
theorem resolveChatKeyId_persist_eq_iff (bodyKeyId : Option ℤ) (model : String) :
    scope.resolveChatKeyId none
        (scope.persistChatSelection chat (scope.resolveChatKeyId bodyKeyId chat) model) =
        scope.resolveChatKeyId bodyKeyId chat ↔
      ∀ keyId, coerceKeyId bodyKeyId = some keyId → scope.isActiveKey keyId = true := by
  cases hbody : coerceKeyId bodyKeyId with
  | some keyId =>
    have hpositive : 0 < keyId := by
      unfold coerceKeyId at hbody
      split at hbody
      · cases hbody
        exact Nat.succ_pos _
      · cases hbody
    have hkey : scope.resolveChatKeyId bodyKeyId chat = some keyId := by
      simp only [resolveChatKeyId, hbody]
    rw [hkey]
    constructor
    · rintro hsame other ⟨⟩
      exact isActiveKey_of_resolved hsame
    · intro hactive
      have hnamed := hactive keyId rfl
      exact resolveChatKeyId_of_saved hpositive (aiProviderKeyId_persist_of_active hnamed) hnamed
  | none =>
    rw [resolveChatKeyId_of_unnamed hbody]
    refine ⟨fun _ _ hkey ↦ (by cases hkey), fun _ ↦ ?_⟩
    cases hkey : scope.resolveChatKeyId none chat with
    | none => exact hkey
    | some keyId =>
      have hactive := isActiveKey_of_resolved hkey
      have hsaved : (scope.persistChatSelection chat (some keyId) model).aiProviderKeyId =
          some keyId := aiProviderKeyId_persist_of_active hactive
      cases keyId with
      | succ n => exact resolveChatKeyId_of_saved n.succ_pos hsaved hactive
      | zero =>
        -- No saved key is 0, so this one is the default, which does not depend on the saved key.
        rw [resolveChatKeyId_none] at hkey ⊢
        rw [hsaved]
        rcases Option.or_eq_some_iff.mp hkey with hstored | ⟨-, hdefault⟩
        · have htruthy := (Option.filter_eq_some_iff.mp hstored).1
          unfold truthyId at htruthy
          split at htruthy <;> cases htruthy
        · exact hdefault

variable (scope chat) in
theorem resumeModel_persist_eq_iff (keyId : Option KeyId) (model : String) :
    scope.resumeModel (scope.persistChatSelection chat keyId model) = model ↔
      model ≠ "" ∨ scope.resumeModel chat = "" := by
  by_cases hmodel : model = ""
  · subst hmodel
    simp [persistChatSelection, resumeModel]
  · simp [persistChatSelection, resumeModel, hmodel]

end ChatScope

namespace ParkedTurn

variable (turn : ParkedTurn) (scope : ChatScope) (files : AttachmentFiles)

/-- What the wake-up needs to repeat the turn. -/
structure Repeatable : Prop where
  nothingWritten : turn.written = []
  noBlocks : ∀ attachment ∈ turn.message.attachments, attachmentBlock files attachment = none
  modelSaved : turn.model scope ≠ "" ∨ scope.resumeModel turn.chat = ""
  keyActive : ∀ keyId, coerceKeyId turn.body.keyId = some keyId → scope.isActiveKey keyId = true
  promptOfRow :
    scope.resolveChatSystemPrompt turn.chat turn.body = scope.resolveChatSystemPrompt turn.chat {}

variable {turn scope files}

theorem lastUserMessage_of_nothingWritten (hwritten : turn.written = []) :
    lastUserMessage (turn.before ++ turn.message :: turn.written) = some turn.message := by
  have hrows := turn.chronological
  rw [hwritten] at hrows ⊢
  exact lastUserMessage_concat hrows turn.user

theorem resumed_eq_sent_iff :
    turn.resumed scope files = some (turn.sent scope files) ↔ turn.Repeatable scope files := by
  have hkey := ChatScope.resolveChatKeyId_persist_eq_iff scope turn.chat turn.body.keyId
    (turn.model scope)
  have hmodel := ChatScope.resumeModel_persist_eq_iff scope turn.chat (turn.keyId scope)
    (turn.model scope)
  have hhistory := turn.priorMessages_eq_iff files
  have hprompt := buildMessageContent_eq_text_iff files turn.message.content
    turn.message.attachments
  constructor
  · intro hsame
    obtain ⟨lastUser, hlast, hoptions⟩ := Option.map_eq_some_iff.mp hsame
    obtain ⟨htext, hmodels, hkeys, hsystems, -, hpriors⟩ := SessionOptions.mk.inj hoptions
    have hwritten := hhistory.mp hpriors
    have huser : lastUser = turn.message :=
      Option.some.inj (hlast.symm.trans (lastUserMessage_of_nothingWritten hwritten))
    rw [huser] at htext
    exact ⟨hwritten, hprompt.mp htext.symm, hmodel.mp hmodels, hkey.mp hkeys, hsystems.symm⟩
  · intro h
    rw [resumed, lastUserMessage_of_nothingWritten h.nothingWritten]
    have htext := (hprompt.mpr h.noBlocks).symm
    have hmodels := hmodel.mpr h.modelSaved
    have hkeys := hkey.mpr h.keyActive
    have hsystems := h.promptOfRow.symm
    have hpriors := hhistory.mpr h.nothingWritten
    exact congrArg some (SessionOptions.mk.injEq .. ▸ ⟨htext, hmodels, hkeys, hsystems, rfl, hpriors⟩)

end ParkedTurn

section

variable {messageIds : List ℕ} {usage : TokenUsage} {records : List UsageRecord}

/-- A record tied to no message counts only when there is nothing to count. -/
theorem countsTokens_none_iff :
    countsTokens messageIds none usage records = true ↔
      usage.inputTokens = 0 ∧ usage.outputTokens = 0 := by
  have htotal : totalTokens messageIds (recordUsage none usage records) =
      totalTokens messageIds records := by
    unfold recordUsage
    split
    · simp [totalTokens]
    · rfl
  unfold countsTokens
  rw [htotal, beq_iff_eq, TokenUsage.mk.injEq]
  omega

end

/-- The wake-up repeats the parked turn and its tokens count exactly when the turn is repeatable and
the run uses no tokens. -/
theorem resumed_turn_is_parked_turn_iff (turn : ParkedTurn) (scope : ChatScope)
    (files : AttachmentFiles) (messageIds : List ℕ) (usage : TokenUsage)
    (records : List UsageRecord) :
    (turn.resumed scope files = some (turn.sent scope files) ∧
      countsTokens messageIds none usage records = true) ↔
      turn.Repeatable scope files ∧ usage.inputTokens = 0 ∧ usage.outputTokens = 0 :=
  and_congr ParkedTurn.resumed_eq_sent_iff countsTokens_none_iff

/-- A streamed turn that had written a piece of its answer when it hit the limit. -/
def partlyAnswered : ParkedTurn where
  streamed := true
  chat := {}
  body := {}
  before := []
  message := ⟨1, .user, "Describe the plan.", 0, []⟩
  written := [⟨2, .assistant, "The plan", 0, []⟩]
  user := rfl
  distinct := by decide
  chronological := by decide

/-- A turn with an image. -/
def withImage : ParkedTurn where
  streamed := false
  chat := {}
  body := {}
  before := []
  message := ⟨1, .user, "What is this?", 0, [⟨"a.png", "image/png", "a.png"⟩]⟩
  written := []
  user := rfl
  distinct := by decide
  chronological := by decide

/-- The user message of a turn that had written something is sent twice, an image is left out, and
the tokens of a repeated turn are missing from the totals. -/
theorem resumed_turn_is_not_parked_turn :
    partlyAnswered.resumed {} ⟨fun _ ↦ none, fun _ ↦ none⟩ ≠
      some (partlyAnswered.sent {} ⟨fun _ ↦ none, fun _ ↦ none⟩) ∧
    withImage.resumed {} ⟨fun _ ↦ some "iVBORw0KGgo=", fun _ ↦ none⟩ ≠
      some (withImage.sent {} ⟨fun _ ↦ some "iVBORw0KGgo=", fun _ ↦ none⟩) ∧
    ¬countsTokens [1, 2] none ⟨1200, 300⟩ [] = true := by
  refine ⟨fun hsame ↦ ?_, fun hsame ↦ ?_, by decide⟩
  · exact List.cons_ne_nil _ _ (ParkedTurn.resumed_eq_sent_iff.mp hsame).nothingWritten
  · have hblock := (ParkedTurn.resumed_eq_sent_iff.mp hsame).noBlocks _ List.mem_cons_self
    exact Option.some_ne_none _ hblock

end Flockctl.Chats
