import Flockctl.Chats.Submission
import Flockctl.Collections.Fallible

/-!
# A message that is rejected leaves no trace

A request that ends in a validation error is to change nothing, and one that is accepted to link
exactly the attachments it names to exactly its message. The second holds in every run, so two
requests never link one attachment. The first fails where a check comes after a write: where the
plain endpoint has saved another selection before it finds the attachments invalid, and where the
streaming one finds an option invalid once the message is there.
-/

namespace Flockctl.Chats.Submission

open Ai Collections Transition

variable (scope : ChatScope)

/-- The attachments a body names. -/
def requestedIds (body : MessageBody) : List AttachmentId :=
  match body.attachment_ids with
  | .ids values => values.map Int.toNat
  | _ => []

/-- A request that is rejected changes nothing. -/
def Traceless (s : ChatStore) (request : Request) : Prop :=
  ∀ error, (handle scope s request).2 = .invalid error → (handle scope s request).1 = s

/-- The message is new, the attachments that are named were free ones of the chat, and they are what
is linked to it. -/
structure LinksExactly (s : ChatStore) (request : Request) (next : ChatStore)
    (message : MessageRow) : Prop where
  fresh : message.id = s.nextMessageId
  chat : message.chatId = request.chatId
  messages : next.messages = s.messages ++ [message]
  free : ∀ id ∈ requestedIds request.body, ∃ row, s.attachments.get id = some row ∧
    row.chatId = request.chatId ∧ row.messageId = none
  linked : ∀ id, next.attachments.get id = (s.attachments.get id).map fun row ↦
    if id ∈ requestedIds request.body then { row with messageId := some message.id } else row

/-- All along a run the requests that are rejected change nothing, those that are accepted link
their attachments, and an attachment stays with its message. -/
structure CleanSubmissions (start : ChatStore) (requests : List Request) : Prop where
  rejected : ∀ before request, before ++ [request] <+: requests →
    Traceless scope (run (step scope) start before) request
  accepted : ∀ before request message, before ++ [request] <+: requests →
    (handle scope (run (step scope) start before) request).2 = .accepted message →
      LinksExactly (run (step scope) start before) request
        (run (step scope) start (before ++ [request])) message
  kept : ∀ before after, before ++ after <+: requests → ∀ id row messageId,
    (run (step scope) start before).attachments.get id = some row →
      row.messageId = some messageId →
        (run (step scope) start (before ++ after)).attachments.get id = some row

/-- The chat has the selection already. -/
def KeepsSelection (s : ChatStore) (request : Request) (selection : Selection) : Prop :=
  ∀ row, s.chats.get request.chatId = some row →
    persistChatSelection scope request.chat selection row = row

/-- The database has the chat, and can store the content. -/
def Insertable (s : ChatStore) (request : Request) : Prop :=
  s.chats.has request.chatId = true ∧ request.body.content ≠ .other none

/-- What the endpoint checks after its first write is valid, or there is no such write. -/
def RejectsEarly (s : ChatStore) (request : Request) : Prop :=
  if request.streamed then
    ∀ checked, streamChecks scope s request = .ok checked → Insertable s request →
      ∃ options, checkOptions request.body = .ok options
  else
    ∀ selection, plainChecks scope request = .ok selection →
      (∃ ids, checkAttachments s request.chatId request.body = .ok ids) ∨
        KeepsSelection scope s request selection

/-! ## Checks -/

theorem firstUnusable_eq_none {chatId : ChatId} {rows : List (AttachmentId × AttachmentRow)}
    (h : firstUnusable chatId rows = none) :
    ∀ entry ∈ rows, entry.2.chatId = chatId ∧ entry.2.messageId = none := by
  fun_induction firstUnusable chatId rows with
  | case1 => nofun
  | case2 id row rest hforeign => cases h
  | case3 id row rest hchat messageId hlinked => cases h
  | case4 id row rest hchat hfree ih =>
    rw [List.forall_mem_cons]
    exact ⟨⟨not_not.mp hchat, hfree⟩, ih h⟩

/-- As many rows as ids: there is a row of each. -/
theorem get_of_length_eq {s : ChatStore} {ids : List AttachmentId}
    (h : (attachmentRows s ids).length = ids.length) {id : AttachmentId} (hid : id ∈ ids) :
    ∃ row, (id, row) ∈ attachmentRows s ids ∧ s.attachments.get id = some row := by
  have hkeys : ((attachmentRows s ids).map Prod.fst).Nodup :=
    s.attachments.nodup.sublist (List.filter_sublist.map Prod.fst)
  have hsubset : (attachmentRows s ids).map Prod.fst ⊆ ids := by
    intro key hkey
    obtain ⟨entry, hentry, rfl⟩ := List.mem_map.mp hkey
    exact of_decide_eq_true (List.mem_filter.mp hentry).2
  have hperm : ((attachmentRows s ids).map Prod.fst).Perm ids := by
    refine (List.subperm_of_subset hkeys hsubset).perm_of_length_le ?_
    rw [List.length_map, h]
  obtain ⟨⟨key, row⟩, hentry, rfl⟩ := List.mem_map.mp (hperm.mem_iff.mpr hid)
  exact ⟨row, hentry, (s.attachments.mem_entries_iff key row).mp (List.mem_filter.mp hentry).1⟩

/-- Attachments that are valid for a chat are free ones of it. -/
theorem free_of_validate {s : ChatStore} {chatId : ChatId} {ids : List AttachmentId}
    (h : validateAttachmentsForMessage s chatId ids = .ok ()) :
    ∀ id ∈ ids, ∃ row, s.attachments.get id = some row ∧ row.chatId = chatId ∧
      row.messageId = none := by
  intro id hid
  unfold validateAttachmentsForMessage at h
  rw [if_neg (List.ne_nil_of_mem hid)] at h
  split at h
  · cases h
  · dsimp only at h
    split at h
    · cases h
    · rename_i hlength
      obtain ⟨row, hentry, hrow⟩ :=
        get_of_length_eq (not_not.mp hlength) (List.mem_dedup.mpr hid)
      split at h
      · cases h
      · rename_i hnone
        obtain ⟨hchat, hfree⟩ := firstUnusable_eq_none hnone _ hentry
        exact ⟨row, hrow, hchat, hfree⟩

theorem parseAttachmentIds_eq_ok {body : MessageBody} {ids : List AttachmentId}
    (h : parseAttachmentIds body = .ok ids) : ids = requestedIds body := by
  unfold parseAttachmentIds at h
  unfold requestedIds
  split at h
  · rename_i hmissing
    rw [hmissing]
    exact (Except.ok.inj h).symm
  · cases h
  · rename_i values hvalues
    split at h
    · rw [hvalues]
      exact (Except.ok.inj h).symm
    · cases h

theorem checkAttachments_eq_ok {s : ChatStore} {chatId : ChatId} {body : MessageBody}
    {ids : List AttachmentId} (h : checkAttachments s chatId body = .ok ids) :
    ids = requestedIds body ∧ ∀ id ∈ ids, ∃ row, s.attachments.get id = some row ∧
      row.chatId = chatId ∧ row.messageId = none := by
  obtain ⟨parsed, hparsed, hrest⟩ := bind_eq_ok_iff.mp h
  obtain ⟨⟨⟩, hvalid, hids⟩ := bind_eq_ok_iff.mp hrest
  cases hids
  exact ⟨parseAttachmentIds_eq_ok hparsed, free_of_validate hvalid⟩

/-! ## Writes -/

section

variable {scope} {s : ChatStore} {request : Request}

theorem persist_eq_self_iff {selection : Selection} :
    s.persist scope request.chatId request.chat selection = s ↔
      KeepsSelection scope s request selection := by
  constructor
  · intro h row hrow
    have hchats : s.chats.modify request.chatId (persistChatSelection scope request.chat selection) =
        s.chats := congrArg ChatStore.chats h
    have hget := JsMap.get_modify s.chats request.chatId
      (persistChatSelection scope request.chat selection) request.chatId
    rw [hchats, if_pos rfl, hrow, Option.map_some] at hget
    exact (Option.some.inj hget).symm
  · intro h
    unfold ChatStore.persist
    rw [JsMap.modify_eq_self h]

/-- A message that is saved is new, and its attachments are linked to it. -/
theorem saveMessage_eq_some {chatId : ChatId} {role : String} {content : ContentField}
    {ids : List AttachmentId} {saved : ChatStore × MessageRow}
    (h : saveMessage s chatId role content ids = some saved) :
    saved.2.id = s.nextMessageId ∧ saved.2.chatId = chatId ∧
      saved.1.messages = s.messages ++ [saved.2] ∧
      saved.1.attachments = (s.linkAttachmentsToMessage saved.2.id ids).attachments ∧
      saved.1.chats = s.chats := by
  obtain ⟨⟨inserted, row⟩, hinsert, hsaved⟩ := Option.map_eq_some_iff.mp h
  cases hsaved
  unfold ChatStore.insertMessage at hinsert
  dsimp only at hinsert
  split at hinsert
  · obtain ⟨text, -, hrow⟩ := Option.map_eq_some_iff.mp hinsert
    cases hrow
    exact ⟨rfl, rfl, rfl, rfl, rfl⟩
  · cases hinsert

theorem saveMessage_eq_none_iff {role : String} {ids : List AttachmentId}
    (hcontent : checkContent request.body = .ok ()) :
    saveMessage s request.chatId role request.body.content ids = none ↔ ¬Insertable s request := by
  unfold saveMessage ChatStore.insertMessage Insertable
  unfold checkContent at hcontent
  rw [Option.map_eq_none_iff]
  cases hchat : s.chats.has request.chatId with
  | false => simp
  | true =>
    cases hbody : request.body.content with
    | falsy =>
      rw [hbody] at hcontent
      cases hcontent
    | text value => simp
    | other stored => simp

theorem get_link (messageId : MessageId) (ids : List AttachmentId) (id : AttachmentId) :
    (s.linkAttachmentsToMessage messageId ids).attachments.get id =
      (s.attachments.get id).map fun row ↦
        if id ∈ ids then { row with messageId := some messageId } else row :=
  JsMap.get_mapWithKey _ _ _

/-- What a request does to the attachments: nothing, or it links those it has checked. -/
theorem attachments_step (scope : ChatScope) (s : ChatStore) (request : Request) :
    (step scope s request).attachments = s.attachments ∨
      ∃ ids messageId, checkAttachments s request.chatId request.body = .ok ids ∧
        (step scope s request).attachments =
          (s.linkAttachmentsToMessage messageId ids).attachments := by
  unfold step handle
  split
  · unfold postMessagesStream
    split
    · exact Or.inl rfl
    · rename_i keyId ids hchecks
      obtain ⟨⟨⟩, -, hrest⟩ := bind_eq_ok_iff.mp hchecks
      obtain ⟨key, -, hrest⟩ := bind_eq_ok_iff.mp hrest
      obtain ⟨checked, hchecked, hids⟩ := bind_eq_ok_iff.mp hrest
      cases hids
      split
      · exact Or.inl rfl
      · rename_i saved message hsaved
        refine Or.inr ⟨ids, message.id, hchecked, ?_⟩
        dsimp only
        split
        · exact (saveMessage_eq_some hsaved).2.2.2.1
        · exact (saveMessage_eq_some hsaved).2.2.2.1
  · unfold postMessages
    split
    · exact Or.inl rfl
    · dsimp only
      split
      · exact Or.inl rfl
      · rename_i ids hids
        split
        · exact Or.inl rfl
        · rename_i saved message hsaved
          refine Or.inr ⟨ids, message.id, hids, ?_⟩
          split
          · exact (saveMessage_eq_some hsaved).2.2.2.1
          · exact (saveMessage_eq_some hsaved).2.2.2.1

/-- An attachment that is linked stays with its message. -/
theorem kept_step {id : AttachmentId} {row : AttachmentRow} {messageId : MessageId}
    (hrow : s.attachments.get id = some row) (hlinked : row.messageId = some messageId) :
    (step scope s request).attachments.get id = some row := by
  rcases attachments_step scope s request with hsame | ⟨ids, message, hids, hlink⟩
  · rw [hsame, hrow]
  · have hother : id ∉ ids := by
      intro hid
      obtain ⟨stored, hstored, -, hfree⟩ := (checkAttachments_eq_ok hids).2 id hid
      cases hrow.symm.trans hstored
      cases hlinked.symm.trans hfree
    rw [hlink, get_link, hrow, Option.map_some, if_neg hother]

/-! ## Requests -/

theorem streamChecks_eq_ok {checked : Option KeyId × List AttachmentId}
    (h : streamChecks scope s request = .ok checked) : checkContent request.body = .ok () ∧
      checkAttachments s request.chatId request.body = .ok checked.2 := by
  obtain ⟨⟨⟩, hcontent, hrest⟩ := bind_eq_ok_iff.mp h
  obtain ⟨keyId, -, hrest⟩ := bind_eq_ok_iff.mp hrest
  obtain ⟨ids, hids, hchecked⟩ := bind_eq_ok_iff.mp hrest
  cases hchecked
  exact ⟨hcontent, hids⟩

theorem messages_ne (s : ChatStore) (message : MessageRow) : s.messages ++ [message] ≠ s.messages := by
  intro h
  have hlength := congrArg List.length h
  rw [List.length_append, List.length_singleton] at hlength
  exact Nat.succ_ne_self _ hlength

/-- The streaming endpoint leaves a trace where it has inserted the message. -/
theorem traceless_stream_iff (hstreamed : request.streamed = true) :
    Traceless scope s request ↔ RejectsEarly scope s request := by
  have hhandle : handle scope s request = postMessagesStream scope s request := if_pos hstreamed
  unfold Traceless RejectsEarly
  rw [hhandle, if_pos hstreamed]
  unfold postMessagesStream
  cases hchecks : streamChecks scope s request with
  | error early => exact iff_of_true (fun _ _ ↦ rfl) nofun
  | ok checked =>
    obtain ⟨keyId, ids⟩ := checked
    obtain ⟨hcontent, -⟩ := streamChecks_eq_ok hchecks
    dsimp only
    cases hsave : saveMessage s request.chatId "user" request.body.content ids with
    | none =>
      have hrefused := (saveMessage_eq_none_iff hcontent).mp hsave
      exact iff_of_true nofun fun _ _ hinsertable ↦ absurd hinsertable hrefused
    | some saved =>
      have hinsertable : Insertable s request := by
        by_contra hrefused
        cases hsave.symm.trans ((saveMessage_eq_none_iff hcontent).mpr hrefused)
      obtain ⟨saved, message⟩ := saved
      dsimp only
      cases hoptions : checkOptions request.body with
      | ok options => exact iff_of_true nofun fun _ _ _ ↦ ⟨options, rfl⟩
      | error late =>
        refine iff_of_false (fun h ↦ ?_) fun h ↦ ?_
        · have hsame : saved.claim request.chatId = s := h late rfl
          have hmessages : (saved.claim request.chatId).messages = s.messages :=
            congrArg ChatStore.messages hsame
          change saved.messages = s.messages at hmessages
          rw [(saveMessage_eq_some hsave).2.2.1] at hmessages
          exact messages_ne s message hmessages
        · obtain ⟨options, hvalid⟩ := h _ rfl hinsertable
          cases hvalid

/-- The plain endpoint leaves a trace where it has saved another selection. -/
theorem traceless_plain_iff (hplain : request.streamed = false) :
    Traceless scope s request ↔ RejectsEarly scope s request := by
  have hne : ¬request.streamed = true := by simp [hplain]
  have hhandle : handle scope s request = postMessages scope s request := if_neg hne
  unfold Traceless RejectsEarly
  rw [hhandle, if_neg hne]
  unfold postMessages
  cases hchecks : plainChecks scope request with
  | error early => exact iff_of_true (fun _ _ ↦ rfl) nofun
  | ok selection =>
    dsimp only
    have hsame : checkAttachments (s.persist scope request.chatId request.chat selection)
        request.chatId request.body = checkAttachments s request.chatId request.body := rfl
    rw [hsame]
    cases hids : checkAttachments s request.chatId request.body with
    | error late =>
      have htrace : s.persist scope request.chatId request.chat selection = s ↔
          KeepsSelection scope s request selection := persist_eq_self_iff
      constructor
      · intro h other hother
        cases hother
        exact Or.inr (htrace.mp (h late rfl))
      · intro h error _
        rcases h selection rfl with ⟨ids, hvalid⟩ | hkeeps
        · cases hvalid
        · exact htrace.mpr hkeeps
    | ok ids =>
      refine iff_of_true ?_ fun _ _ ↦ Or.inl ⟨ids, rfl⟩
      intro error herror
      dsimp only at herror
      split at herror
      · cases herror
      · split at herror <;> cases herror

theorem traceless_iff : Traceless scope s request ↔ RejectsEarly scope s request := by
  cases hstreamed : request.streamed with
  | true => exact traceless_stream_iff hstreamed
  | false => exact traceless_plain_iff hstreamed

/-- A request that is accepted links exactly what it names. -/
theorem linksExactly_of_accepted {message : MessageRow}
    (h : (handle scope s request).2 = .accepted message) :
    LinksExactly s request (step scope s request) message := by
  have hsaved {stored : ChatStore} {role : String} {ids : List AttachmentId} {saved : ChatStore}
      {row : MessageRow}
      (hsave : saveMessage stored request.chatId role request.body.content ids = some (saved, row))
      (hstored : stored.messages = s.messages ∧
        stored.nextMessageId = s.nextMessageId ∧ stored.attachments = s.attachments)
      (hids : checkAttachments s request.chatId request.body = .ok ids)
      {next : ChatStore} (hnext : next.messages = saved.messages ∧
        next.attachments = saved.attachments) : LinksExactly s request next row := by
    obtain ⟨hfresh, hchat, hmessages, hattachments, -⟩ := saveMessage_eq_some hsave
    obtain ⟨hrequested, hfree⟩ := checkAttachments_eq_ok hids
    subst hrequested
    refine ⟨hfresh.trans hstored.2.1, hchat, ?_, hfree, fun id ↦ ?_⟩
    · rw [hnext.1, hmessages, hstored.1]
    · rw [hnext.2, hattachments, get_link, hstored.2.2]
  unfold step
  unfold handle at h ⊢
  split at h
  · rename_i hstreamed
    rw [if_pos hstreamed]
    unfold postMessagesStream at h ⊢
    split at h
    · cases h
    · rename_i keyId ids hchecks
      split at h
      · cases h
      · rename_i saved row hsave
        dsimp only at h ⊢
        split at h
        · cases h
        · cases h
          exact hsaved hsave ⟨rfl, rfl, rfl⟩ (streamChecks_eq_ok hchecks).2 ⟨rfl, rfl⟩
  · rename_i hplain
    rw [if_neg hplain]
    unfold postMessages at h ⊢
    split at h
    · cases h
    · dsimp only at h ⊢
      split at h
      · cases h
      · rename_i ids hids
        split at h
        · cases h
        · rename_i saved row hsave
          split at h
          · rename_i hrole
            rw [if_pos hrole]
            cases h
            exact hsaved hsave ⟨rfl, rfl, rfl⟩ hids ⟨rfl, rfl⟩
          · rename_i hrole
            rw [if_neg hrole]
            cases h
            exact hsaved hsave ⟨rfl, rfl, rfl⟩ hids ⟨rfl, rfl⟩

end

/-- In every run of requests to both endpoints, whatever chat rows they have read, the requests that
are rejected leave no trace and the accepted ones link their attachments exactly when each request
is valid in what its endpoint checks after the first write. -/
theorem cleanSubmissions_iff (start : ChatStore) (requests : List Request) :
    CleanSubmissions scope start requests ↔
      Disciplined (step scope) (RejectsEarly scope) start requests := by
  rw [disciplined_iff_forall_event]
  simp only [← traceless_iff]
  refine ⟨fun h ↦ h.rejected, fun h ↦ ⟨h, fun before request message _ haccepted ↦ ?_, ?_⟩⟩
  · have hstep : run (step scope) start (before ++ [request]) =
        step scope (run (step scope) start before) request := List.foldl_append
    rw [hstep]
    exact linksExactly_of_accepted haccepted
  · intro before after _ id row messageId hrow hlinked
    have hruns : run (step scope) start (before ++ after) =
        run (step scope) (run (step scope) start before) after := List.foldl_append
    rw [hruns]
    let Kept (s : ChatStore) : Prop := s.attachments.get id = some row
    have hstep (s : ChatStore) (request : Request) (hs : Kept s) : Kept (step scope s request) :=
      kept_step hs hlinked
    exact run_preserves hstep (show Kept _ from hrow) after

/-- One chat, and no attachment. -/
def oneChat : ChatStore := { chats := JsMap.empty.set 1 {} }

/-- A request that selects a model and names an attachment there is not. -/
def missingAttachment : Request where
  streamed := false
  chatId := 1
  chat := {}
  body := { content := .text "hello", model := some "claude-opus-4-7", attachment_ids := .ids [9] }

/-- A streamed request with an effort that is no level. -/
def misspelledEffort : Request where
  streamed := true
  chatId := 1
  chat := {}
  body := { content := .text "hello", effort := .text "hihg" }

/-- The plain endpoint has saved the model when it rejects the attachment; the streaming one has
inserted the message and claimed the chat when it rejects the effort. -/
theorem not_cleanSubmissions :
    ¬CleanSubmissions {} oneChat [missingAttachment] ∧
      ¬CleanSubmissions {} oneChat [misspelledEffort] := by
  constructor
  · intro h
    have hrow : (handle {} oneChat missingAttachment).1 = oneChat :=
      h.rejected [] missingAttachment (List.prefix_refl _) .attachmentMissing rfl
    have hmodel := congrArg (fun s ↦ (s.chats.get 1).map fun row ↦ row.model) hrow
    revert hmodel
    decide +kernel
  · intro h
    have hrow : (handle {} oneChat misspelledEffort).1 = oneChat :=
      h.rejected [] misspelledEffort (List.prefix_refl _) .effortInvalid rfl
    have hmessages := congrArg (fun s ↦ s.messages.length) hrow
    revert hmessages
    decide +kernel

end Flockctl.Chats.Submission
