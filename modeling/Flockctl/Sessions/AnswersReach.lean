import Flockctl.Sessions.AnswerableQuestions
import Flockctl.Sessions.Answers
import Mathlib.Data.List.Infix

/-!
# When an accepted answer reaches the agent

The session that took an answer has it in its messages. Nobody else has it, so the next model call
for the task or chat carries the text exactly when the session that took the answer makes it, or
when the text occurs in the messages of another session anyway.
-/

namespace Flockctl.Sessions

open Collections Paths Permissions Tasks Transition

/-! ## The table over a step -/

namespace QuestionDesk

variable {desk desk' desk'' : QuestionDesk}

/-- A row belongs to the entity its request id names, which is not deleted, and the numbers of the
sessions are used up. -/
structure Orderly (desk : QuestionDesk) : Prop where
  rows : ∀ requestId row, desk.questions.get requestId = some row →
    row.ref = requestId.ref ∧ row.ref ∉ desk.deleted
  numbered : ∀ number session, desk.sessions.get number = some session → number < desk.created

/-- The row of a request is answered. -/
def Answered (desk : QuestionDesk) (requestId : RequestId) : Prop :=
  ∃ row, desk.questions.get requestId = some row ∧ row.status = .answered

/-- The later desk is orderly, and an answered row stays answered until its entity is deleted. -/
structure Follows (desk desk' : QuestionDesk) : Prop where
  orderly : desk'.Orderly
  answered : ∀ requestId, desk.Answered requestId → requestId.ref ∉ desk'.deleted →
    desk'.Answered requestId
  deleted : desk.deleted ⊆ desk'.deleted
  created : desk.created ≤ desk'.created

theorem Follows.refl (h : desk.Orderly) : desk.Follows desk where
  orderly := h
  answered _ hanswered _ := hanswered
  deleted := List.Subset.refl _
  created := le_rfl

theorem Follows.trans (h : desk.Follows desk') (h' : desk'.Follows desk'') :
    desk.Follows desk'' where
  orderly := h'.orderly
  answered requestId hanswered hlive :=
    h'.answered requestId
      (h.answered requestId hanswered fun hmem ↦ hlive (h'.deleted hmem)) hlive
  deleted _ hmem := h'.deleted (h.deleted hmem)
  created := h.created.trans h'.created

/-- A change of the sessions, of the executors' maps and of the tasks. -/
theorem Orderly.sessions (h : desk.Orderly) {sessions : JsMap ℕ AgentSession} {created : ℕ}
    {registered : JsMap AgentRef ℕ} {statuses : JsMap TaskId TaskStatus}
    (hcreated : desk.created ≤ created)
    (hnumbered : ∀ number session, sessions.get number = some session → number < created) :
    desk.Follows { desk with
      sessions := sessions, created := created, registered := registered, statuses := statuses } where
  orderly := ⟨h.rows, hnumbered⟩
  answered _ hanswered _ := hanswered
  deleted := List.Subset.refl _
  created := hcreated

/-- A change of the table that keeps its answered rows. -/
theorem Orderly.questions (h : desk.Orderly) {questions : JsMap RequestId QuestionRow}
    (hrows : ∀ requestId row, questions.get requestId = some row →
      row.ref = requestId.ref ∧ row.ref ∉ desk.deleted)
    (hanswered : ∀ requestId row, desk.questions.get requestId = some row →
      row.status = .answered →
      ∃ row', questions.get requestId = some row' ∧ row'.status = .answered) :
    desk.Follows { desk with questions := questions } where
  orderly := ⟨hrows, h.numbered⟩
  answered requestId hold _ := by
    obtain ⟨row, hrow, hstatus⟩ := hold
    exact hanswered requestId row hrow hstatus
  deleted := List.Subset.refl _
  created := le_rfl

theorem Orderly.changeSession (h : desk.Orderly) (number : ℕ)
    (change : AgentSession → AgentSession) : desk.Follows (desk.changeSession number change) := by
  apply h.sessions le_rfl
  intro other session hsession
  rw [JsMap.get_modify] at hsession
  split at hsession
  · next hother =>
    obtain ⟨before, hbefore, -⟩ := Option.map_eq_some_iff.mp hsession
    exact hother ▸ h.numbered number before hbefore
  · exact h.numbered other session hsession

theorem Orderly.writeStatus (h : desk.Orderly) (id : TaskId) (status : TaskStatus) :
    desk.Follows (desk.writeStatus id status) :=
  h.sessions le_rfl h.numbered

theorem Orderly.register (h : desk.Orderly) (ref : AgentRef) (mode : PermissionMode)
    (roots : List AbsolutePath) : desk.Follows (desk.register ref mode roots) := by
  apply h.sessions (Nat.le_succ _)
  intro number session hsession
  rw [JsMap.get_set] at hsession
  split at hsession
  · next hnumber =>
    rw [hnumber]
    exact Nat.lt_succ_self _
  · exact (h.numbered number session hsession).trans (Nat.lt_succ_self _)

theorem Orderly.persistAgentQuestion (h : desk.Orderly) (number : ℕ) {ref : AgentRef}
    {requestId : RequestId} (href : ref = requestId.ref) :
    desk.Follows (desk.persistAgentQuestion number ref requestId) := by
  unfold QuestionDesk.persistAgentQuestion
  split
  · exact Follows.refl h
  · next hinserts =>
    simp only [Bool.or_eq_true, List.contains_iff_mem, not_or] at hinserts
    apply h.questions
    · intro other row hrow
      rw [JsMap.get_set] at hrow
      split at hrow
      · next hother =>
        cases hrow
        exact ⟨hother ▸ href, hinserts.2⟩
      · exact h.rows other row hrow
    · intro other row hrow hstatus
      refine ⟨row, ?_, hstatus⟩
      rw [JsMap.get_set_of_ne]
      · exact hrow
      · rintro rfl
        exact hinserts.1 ((desk.questions.has_eq_true_iff other).mpr ⟨row, hrow⟩)

theorem Orderly.ask (h : desk.Orderly) (number : ℕ) : desk.Follows (desk.ask number) := by
  unfold QuestionDesk.ask
  split
  · exact Follows.refl h
  · next session hsession =>
    have hasking := h.changeSession number fun session ↦ session.awaitUserAnswer.1
    dsimp only
    split
    · exact hasking
    · next requestId hrequest =>
      have href : session.ref = requestId.ref := by
        unfold AgentSession.awaitUserAnswer at hrequest
        dsimp only at hrequest
        split at hrequest
        · cases hrequest
        · cases hrequest
          rfl
      refine hasking.trans ?_
      unfold QuestionDesk.handleQuestionEmitted
      have hpersisted := hasking.orderly.persistAgentQuestion number href
      dsimp only
      split
      · exact hpersisted
      · split
        · exact hpersisted.trans (hpersisted.orderly.writeStatus _ _)
        · exact hpersisted

theorem Orderly.cancelPendingQuestions (h : desk.Orderly) (entities : AgentRef → Bool) :
    desk.Follows (desk.cancelPendingQuestions entities) := by
  have hget (requestId : RequestId) := JsMap.get_mapWithKey desk.questions
    (fun _ row ↦ if entities row.ref && row.status = .pending then
      { row with status := .cancelled } else row) requestId
  apply h.questions
  · intro requestId row hrow
    rw [hget] at hrow
    obtain ⟨before, hbefore, rfl⟩ := Option.map_eq_some_iff.mp hrow
    have hold := h.rows requestId before hbefore
    split
    · exact hold
    · exact hold
  · intro requestId row hrow hstatus
    refine ⟨row, ?_, hstatus⟩
    rw [hget, hrow, Option.map_some, if_neg]
    rw [hstatus]
    simp

theorem Orderly.cancelChat (h : desk.Orderly) (id : ℕ) : desk.Follows (desk.cancelChat id) := by
  have hcancelled := h.cancelPendingQuestions (· = .chat id)
  unfold QuestionDesk.cancelChat
  dsimp only
  split
  · exact hcancelled
  · exact hcancelled.trans (hcancelled.orderly.changeSession _ _)

theorem Orderly.finish (h : desk.Orderly) (number : ℕ) (outcome : SessionOutcome) :
    desk.Follows (desk.finish number outcome) := by
  unfold QuestionDesk.finish
  split
  · exact Follows.refl h
  · next session hsession =>
    have hended : desk.Follows { desk with
        sessions := desk.sessions.delete number
        registered := desk.registered.delete session.ref } := by
      apply h.sessions le_rfl
      intro other found hfound
      exact h.numbered other found (JsMap.get_delete_eq_some_iff.mp hfound).2
    dsimp only
    split
    · exact hended
    · exact hended.trans (hended.orderly.writeStatus _ _)

theorem Orderly.restart (h : desk.Orderly) : desk.Follows desk.restart := by
  have hcancelled := h.cancelPendingQuestions AgentRef.isChat
  refine hcancelled.trans ?_
  apply hcancelled.orderly.sessions le_rfl
  intro number session hsession
  cases hsession

theorem Orderly.deleteEntity (h : desk.Orderly) (ref : AgentRef) :
    desk.Follows (desk.deleteEntity ref) where
  orderly :=
    { rows := by
        intro requestId row hrow
        have hkept := JsMap.get_filter desk.questions (fun _ row ↦ decide (row.ref ≠ ref)) requestId
        rw [show (desk.deleteEntity ref).questions.get requestId = _ from hkept,
          Option.filter_eq_some_iff] at hrow
        obtain ⟨hname, hlive⟩ := h.rows requestId row hrow.1
        refine ⟨hname, fun hmem ↦ ?_⟩
        rcases List.mem_cons.mp hmem with hsame | hold
        · exact of_decide_eq_true hrow.2 hsame
        · exact hlive hold
      numbered := h.numbered }
  answered requestId hanswered hlive := by
    obtain ⟨row, hrow, hstatus⟩ := hanswered
    refine ⟨row, ?_, hstatus⟩
    have hkept := JsMap.get_filter desk.questions (fun _ row ↦ decide (row.ref ≠ ref)) requestId
    refine hkept.trans (Option.filter_eq_some_iff.mpr ⟨hrow, decide_eq_true ?_⟩)
    intro hsame
    exact hlive (List.mem_cons.mpr (Or.inl ((h.rows requestId row hrow).1.symm.trans hsame)))
  deleted := List.subset_cons_self _ _
  created := le_rfl

/-- What an accepted answer changes: the pending row of the request is answered, and apart from the
table only the sessions and the status of the task. -/
structure Accepts (desk desk' : QuestionDesk) (ref : AgentRef) (requestId : RequestId) :
    Prop where
  pending : ∃ row, desk.questions.get requestId = some row ∧ row.ref = ref ∧
    row.status = .pending ∧
    desk'.questions = desk.questions.set requestId { row with status := .answered }
  deleted : desk'.deleted = desk.deleted
  created : desk'.created = desk.created
  sessions : ∀ number session, desk'.sessions.get number = some session →
    ∃ before, desk.sessions.get number = some before

/-- Either nothing happens, or the answer is accepted. -/
theorem answerQuestion_cases (desk : QuestionDesk) (ref : AgentRef) (requestId : RequestId) :
    desk.answerQuestion ref requestId = (desk, false) ∨
      (desk.answerQuestion ref requestId).2 = true ∧
        desk.Accepts (desk.answerQuestion ref requestId).1 ref requestId := by
  unfold QuestionDesk.answerQuestion
  cases hrow : desk.questions.get requestId with
  | none => exact Or.inl rfl
  | some row =>
    dsimp only
    split
    · next howned =>
      have hpending (other : QuestionDesk)
          (hquestions : other.questions =
            desk.questions.set requestId { row with status := .answered }) :
          ∃ row, desk.questions.get requestId = some row ∧ row.ref = ref ∧
            row.status = .pending ∧
            other.questions = desk.questions.set requestId { row with status := .answered } :=
        ⟨row, hrow, howned.1, howned.2, hquestions⟩
      split
      · next number session hregistered =>
        split
        · have hsessions : ∀ other found, (desk.sessions.modify number
              fun session ↦ (session.resolveQuestion requestId).1).get other = some found →
              ∃ before, desk.sessions.get other = some before := by
            intro other found hfound
            rw [JsMap.get_modify] at hfound
            split at hfound
            · next hother =>
              obtain ⟨before, hbefore, -⟩ := Option.map_eq_some_iff.mp hfound
              exact ⟨before, hother ▸ hbefore⟩
            · exact ⟨found, hfound⟩
          split
          · exact Or.inr ⟨rfl, hpending _ rfl, rfl, rfl, hsessions⟩
          · split
            · exact Or.inr ⟨rfl, hpending _ rfl, rfl, rfl, hsessions⟩
            · exact Or.inr ⟨rfl, hpending _ rfl, rfl, rfl, hsessions⟩
        · exact Or.inl rfl
      · split
        · exact Or.inl rfl
        · split
          · exact Or.inr ⟨rfl, hpending _ rfl, rfl, rfl, fun _ session hsession ↦
              ⟨session, hsession⟩⟩
          · exact Or.inl rfl
    · exact Or.inl rfl

theorem Orderly.accepts (h : desk.Orderly) {ref : AgentRef} {requestId : RequestId}
    (haccepts : desk.Accepts desk' ref requestId) : desk.Follows desk' := by
  obtain ⟨row, hrow, -, -, hquestions⟩ := haccepts.pending
  refine ⟨⟨?_, ?_⟩, ?_, ?_, ?_⟩
  · intro other row' hrow'
    rw [hquestions, JsMap.get_set] at hrow'
    rw [haccepts.deleted]
    split at hrow'
    · next hother =>
      cases hrow'
      exact hother ▸ h.rows requestId row hrow
    · exact h.rows other row' hrow'
  · intro number session hsession
    obtain ⟨before, hbefore⟩ := haccepts.sessions number session hsession
    rw [haccepts.created]
    exact h.numbered number before hbefore
  · intro other ⟨row', hrow', hstatus⟩ _
    rw [Answered, hquestions, JsMap.get_set]
    split
    · exact ⟨_, rfl, rfl⟩
    · exact ⟨row', hrow', hstatus⟩
  · rw [haccepts.deleted]
    exact List.Subset.refl _
  · rw [haccepts.created]

theorem Orderly.answerQuestion (h : desk.Orderly) (ref : AgentRef) (requestId : RequestId) :
    desk.Follows (desk.answerQuestion ref requestId).1 := by
  rcases desk.answerQuestion_cases ref requestId with hrefused | ⟨-, haccepts⟩
  · rw [hrefused]
    exact Follows.refl h
  · exact h.accepts haccepts

theorem Orderly.step (h : desk.Orderly) (host : Host) (event : DeskEvent) :
    desk.Follows (desk.step host event) := by
  cases event with
  | register ref mode roots => exact h.register ref mode roots
  | ask number => exact h.ask number
  | answer ref requestId => exact h.answerQuestion ref requestId
  | canUseTool number toolName input => exact h.changeSession _ _
  | resolvePermission number requestId => exact h.changeSession _ _
  | updatePermissionMode number mode => exact h.changeSession _ _
  | abort number => exact h.changeSession _ _
  | cancelChat id => exact h.cancelChat id
  | finish number outcome => exact h.finish number outcome
  | restart => exact h.restart
  | deleteEntity ref => exact h.deleteEntity ref
  | writeStatus id status =>
    change desk.Follows (if status = .waitingForInput then desk else desk.writeStatus id status)
    split
    · exact Follows.refl h
    · exact h.writeStatus id status

end QuestionDesk

/-! ## The texts -/

/-- The text is part of a message of the input. -/
def PartOf (text : Text) (input : List Text) : Prop := ∃ message ∈ input, text <:+: message

instance (text : Text) (input : List Text) : Decidable (PartOf text input) :=
  inferInstanceAs (Decidable (∃ message ∈ input, text <:+: message))

theorem PartOf.append {text : Text} {input : List Text} (h : PartOf text input)
    (more : List Text) : PartOf text (input ++ more) := by
  obtain ⟨message, hmessage, hinfix⟩ := h
  exact ⟨message, List.mem_append_left more hmessage, hinfix⟩

namespace AnswerDesk

variable {s : AnswerDesk}

/-- At most one answer is accepted for a request. The row of an accepted answer is answered with
its text, as long as its task or chat is not deleted. The first model call after it had the text
for input. And an answer that is refused changes nothing. -/
structure AnswersReach (s : AnswerDesk) : Prop where
  single : (s.accepted.map AcceptedAnswer.requestId).Nodup
  row : ∀ a ∈ s.accepted, a.ref ∉ s.desk.deleted →
    ∃ row, s.desk.questions.get a.requestId = some row ∧ row.ref = a.ref ∧
      row.status = .answered ∧ s.answers.get a.requestId = some a.text
  reaches : ∀ x ∈ s.heard, PartOf x.1.text x.2
  refused : ∀ ref requestId text, (s.answer ref requestId text).2 = false →
    (s.answer ref requestId text).1 = s

/-- The session that makes a model call has taken every answer its task or chat waits with, or has
its text from elsewhere. -/
def HandedOver (s : AnswerDesk) : AnswerEvent → Prop
  | .modelCall number =>
    ∀ session, s.desk.sessions.get number = some session → session.aborted = false →
      session.hasQuestion = false → ∀ a ∈ s.waiting, a.ref = session.ref →
        a.takenBy = some number ∨ PartOf a.text (s.inputOf number)
  | .start _ _ _ _ _ _ _ | .answer _ _ _ | .desk _ => True

/-- What holds on every run: the rows of the accepted answers, and the texts of those that a session
has taken and that wait for a model call. -/
structure Told (s : AnswerDesk) : Prop where
  orderly : s.desk.Orderly
  single : (s.accepted.map AcceptedAnswer.requestId).Nodup
  named : ∀ a ∈ s.accepted, a.ref = a.requestId.ref
  answered : ∀ a ∈ s.accepted, a.ref ∉ s.desk.deleted →
    s.desk.Answered a.requestId ∧ s.answers.get a.requestId = some a.text
  taken : ∀ a ∈ s.waiting, ∀ number ∈ a.takenBy,
    number < s.desk.created ∧ PartOf a.text (s.inputOf number)

/-- An answer for a request that was answered before is refused. -/
theorem Told.not_mem (h : s.Told) {requestId : RequestId} {row : QuestionRow}
    (hrow : s.desk.questions.get requestId = some row) (hpending : row.status = .pending) :
    requestId ∉ s.accepted.map AcceptedAnswer.requestId := by
  intro hmem
  obtain ⟨a, ha, rfl⟩ := List.mem_map.mp hmem
  obtain ⟨hname, hlive⟩ := h.orderly.rows a.requestId row hrow
  have hlive' : a.ref ∉ s.desk.deleted := by
    rw [h.named a ha, ← hname]
    exact hlive
  obtain ⟨⟨other, hother, hanswered⟩, -⟩ := h.answered a ha hlive'
  rw [hrow] at hother
  cases hother
  rw [hpending] at hanswered
  cases hanswered

theorem answer_refused (ref : AgentRef) (requestId : RequestId) (text : Text)
    (h : (s.answer ref requestId text).2 = false) : (s.answer ref requestId text).1 = s := by
  unfold answer at h ⊢
  rcases s.desk.answerQuestion_cases ref requestId with hrefused | ⟨haccepted, -⟩
  · rw [hrefused]
  · cases hanswer : s.desk.answerQuestion ref requestId with
    | mk desk accepted =>
      rw [hanswer] at h haccepted
      cases haccepted
      cases h

theorem Told.follows (h : s.Told) {desk : QuestionDesk} (hdesk : s.desk.Follows desk) :
    Told { s with desk := desk } where
  orderly := hdesk.orderly
  single := h.single
  named := h.named
  answered a ha hlive := by
    obtain ⟨hanswered, htext⟩ :=
      h.answered a ha fun hmem ↦ hlive (hdesk.deleted hmem)
    exact ⟨hdesk.answered a.requestId hanswered (h.named a ha ▸ hlive), htext⟩
  taken a ha number hnumber := by
    obtain ⟨hlt, hpart⟩ := h.taken a ha number hnumber
    exact ⟨hlt.trans_le hdesk.created, hpart⟩

theorem Told.start (h : s.Told) (ref : AgentRef) (mode : PermissionMode)
    (roots : List AbsolutePath) (messages : List Text) :
    (s.start ref mode roots messages).Told := by
  have hfollows := h.follows (h.orderly.register ref mode roots)
  refine ⟨hfollows.orderly, h.single, h.named, hfollows.answered, ?_⟩
  intro a ha number hnumber
  obtain ⟨hlt, hpart⟩ := h.taken a ha number hnumber
  refine ⟨hlt.trans (Nat.lt_succ_self _), ?_⟩
  have hsame : (s.start ref mode roots messages).inputOf number = s.inputOf number := by
    unfold inputOf AnswerDesk.start
    rw [JsMap.get_set_of_ne _ _ hlt.ne]
  rw [hsame]
  exact hpart

theorem inputOf_handTo (text : Text) (takenBy : Option ℕ) (number : ℕ) :
    (s.handTo text takenBy).inputOf number =
      if takenBy = some number then s.inputOf number ++ [text] else s.inputOf number := by
  unfold handTo
  cases takenBy with
  | none => simp
  | some taker =>
    unfold inputOf
    by_cases hsame : number = taker
    · rw [hsame, JsMap.get_set_self, if_pos rfl]
      rfl
    · rw [JsMap.get_set_of_ne _ _ hsame, if_neg fun heq ↦ hsame (Option.some.inj heq).symm]

theorem Told.answer (h : s.Told) (ref : AgentRef) (requestId : RequestId) (text : Text) :
    (s.answer ref requestId text).1.Told := by
  rcases s.desk.answerQuestion_cases ref requestId with hrefused | ⟨haccepted, haccepts⟩
  · have hsame : (s.answer ref requestId text).1 = s := by
      apply answer_refused
      unfold AnswerDesk.answer
      rw [hrefused]
    rw [hsame]
    exact h
  · have hfollows := h.follows (h.orderly.accepts haccepts)
    obtain ⟨row, hrow, href, hpending, hquestions⟩ := haccepts.pending
    have hname : ref = requestId.ref := href.symm.trans (h.orderly.rows requestId row hrow).1
    have hfresh := h.not_mem hrow hpending
    have htaker : ∀ number ∈ (s.desk.registeredSession ref).map Prod.fst,
        number < s.desk.created := by
      intro number hnumber
      obtain ⟨⟨found, session⟩, hfound, rfl⟩ := Option.map_eq_some_iff.mp hnumber
      exact h.orderly.numbered found session
        ((QuestionDesk.registeredSession_eq_some_iff ref found session).mp hfound).2
    unfold AnswerDesk.answer
    revert haccepted haccepts hquestions hfollows
    cases s.desk.answerQuestion ref requestId with
    | mk desk accepted =>
      intro haccepted haccepts hfollows hquestions
      cases haccepted
      refine ⟨hfollows.orderly, ?_, ?_, ?_, ?_⟩
      · change ((s.accepted ++ [_]).map AcceptedAnswer.requestId).Nodup
        rw [List.map_append]
        apply List.nodup_append.mpr
        refine ⟨h.single, List.nodup_singleton _, ?_⟩
        intro other hother same hsame
        rw [List.mem_singleton.mp hsame]
        rintro rfl
        exact hfresh hother
      · intro a ha
        rcases List.mem_append.mp ha with hold | hnew
        · exact h.named a hold
        · rw [List.mem_singleton.mp hnew]
          exact hname
      · intro a ha hlive
        change desk.Answered a.requestId ∧ (s.answers.set requestId text).get a.requestId = _
        rcases List.mem_append.mp ha with hold | hnew
        · have hne : a.requestId ≠ requestId := by
            rintro rfl
            exact hfresh (List.mem_map.mpr ⟨a, hold, rfl⟩)
          rw [JsMap.get_set_of_ne _ _ hne]
          exact hfollows.answered a hold hlive
        · rw [List.mem_singleton.mp hnew]
          refine ⟨⟨{ row with status := .answered }, ?_, rfl⟩, JsMap.get_set_self _ _ _⟩
          rw [hquestions]
          exact JsMap.get_set_self _ _ _
      · intro a ha number hnumber
        change number < desk.created ∧ PartOf a.text ((s.handTo text _).inputOf number)
        rw [haccepts.created, inputOf_handTo]
        rcases List.mem_append.mp ha with hold | hnew
        · obtain ⟨hlt, hpart⟩ := h.taken a hold number hnumber
          refine ⟨hlt, ?_⟩
          split
          · exact hpart.append _
          · exact hpart
        · rw [List.mem_singleton.mp hnew] at hnumber ⊢
          refine ⟨htaker number hnumber, ?_⟩
          rw [if_pos (Option.mem_def.mp hnumber)]
          exact ⟨text, List.mem_append_right _ (List.mem_singleton.mpr rfl), List.infix_rfl⟩

theorem Told.modelCall (h : s.Told) (number : ℕ) : (s.modelCall number).Told := by
  unfold AnswerDesk.modelCall
  split
  · exact h
  · split
    · exact h
    · exact
        { orderly := h.orderly
          single := h.single
          named := h.named
          answered := h.answered
          taken := fun a ha ↦ h.taken a (List.mem_of_mem_filter ha) }

theorem Told.step (h : s.Told) (host : Host) (event : AnswerEvent) : (s.step host event).Told := by
  cases event with
  | start ref mode roots resumeSessionId useResumeContinuationPrompt prompt priorMessages =>
    exact h.start ref mode roots _
  | answer ref requestId text => exact h.answer ref requestId text
  | modelCall number => exact h.modelCall number
  | desk event =>
    have hfollows := h.follows (h.orderly.step host event)
    cases event <;> first | exact h | exact hfollows

theorem told_initial : Told {} where
  orderly :=
    { rows := fun requestId row hrow ↦ by cases hrow
      numbered := fun number session hsession ↦ by cases hsession }
  single := List.nodup_nil
  named a ha := by cases ha
  answered a ha := by cases ha
  taken a ha := by cases ha

/-- The first half of the statement holds on every run; what is left is the input of the calls. -/
theorem Told.answersReach (h : s.Told) (hheard : ∀ x ∈ s.heard, PartOf x.1.text x.2) :
    s.AnswersReach where
  single := h.single
  row a ha hlive := by
    obtain ⟨⟨row, hrow, hstatus⟩, htext⟩ := h.answered a ha hlive
    have hname := (h.orderly.rows a.requestId row hrow).1
    exact ⟨row, hrow, hname.trans (h.named a ha).symm, hstatus, htext⟩
  reaches := hheard
  refused := answer_refused

theorem heard_handTo (text : Text) (takenBy : Option ℕ) :
    (s.handTo text takenBy).heard = s.heard := by
  cases takenBy <;> rfl

theorem heard_answer (ref : AgentRef) (requestId : RequestId) (text : Text) :
    (s.answer ref requestId text).1.heard = s.heard := by
  unfold AnswerDesk.answer
  split
  · rfl
  · exact heard_handTo text _

/-- What the model calls of a step have for input. -/
theorem heard_step_iff (h : s.Told) (hheard : ∀ x ∈ s.heard, PartOf x.1.text x.2) (host : Host)
    (event : AnswerEvent) :
    (∀ x ∈ (s.step host event).heard, PartOf x.1.text x.2) ↔ s.HandedOver event := by
  cases event with
  | start ref mode roots resumeSessionId useResumeContinuationPrompt prompt priorMessages =>
    exact iff_of_true hheard trivial
  | answer ref requestId text =>
    refine iff_of_true ?_ trivial
    change ∀ x ∈ (s.answer ref requestId text).1.heard, _
    rw [heard_answer]
    exact hheard
  | desk event =>
    refine iff_of_true ?_ trivial
    cases event <;> exact hheard
  | modelCall number =>
    change (∀ x ∈ (s.modelCall number).heard, _) ↔ _
    unfold AnswerDesk.modelCall HandedOver
    cases hsession : s.desk.sessions.get number with
    | none =>
      refine iff_of_true hheard fun session hsome ↦ ?_
      rw [hsession] at hsome
      cases hsome
    | some session =>
      dsimp only
      split
      · next hsilent =>
        refine iff_of_true hheard fun other hother haborted hquestion ↦ ?_
        rw [hsession] at hother
        cases hother
        rw [haborted, hquestion] at hsilent
        cases hsilent
      · next hcalls =>
        rw [Bool.or_eq_true, not_or, Bool.not_eq_true, Bool.not_eq_true] at hcalls
        constructor
        · intro hall other hother _ _ a ha href
          rw [hsession] at hother
          cases hother
          refine Or.inr (hall (a, s.inputOf number) (List.mem_append_right _ ?_))
          exact List.mem_map.mpr ⟨a, List.mem_filter.mpr ⟨ha, decide_eq_true href⟩, rfl⟩
        · intro hhanded x hx
          rcases List.mem_append.mp hx with hold | hnew
          · exact hheard x hold
          · obtain ⟨a, ha, rfl⟩ := List.mem_map.mp hnew
            obtain ⟨hwaiting, href⟩ := List.mem_filter.mp ha
            rcases hhanded session hsession hcalls.1 hcalls.2 a hwaiting (of_decide_eq_true href) with
              htaken | hpart
            · exact (h.taken a hwaiting number htaken).2
            · exact hpart

/-- A run keeps its word to the user exactly when every model call is made by the session that has
taken the answers it follows. -/
theorem answers_reach_iff (host : Host) (events : List AnswerEvent) :
    (∀ before, before <+: events → (run (step host) {} before).AnswersReach) ↔
      Disciplined (step host) HandedOver {} events := by
  have hstep (s : AnswerDesk) (event : AnswerEvent)
      (h : s.Told ∧ ∀ x ∈ s.heard, PartOf x.1.text x.2) (hhanded : s.HandedOver event) :
      (s.step host event).Told ∧ ∀ x ∈ (s.step host event).heard, PartOf x.1.text x.2 :=
    ⟨h.1.step host event, (heard_step_iff h.1 h.2 host event).mpr hhanded⟩
  apply disciplined_iff_good hstep
  · exact fun s h ↦ h.1.answersReach h.2
  · intro s event h hgood
    exact (heard_step_iff h.1 h.2 host event).mp hgood.reaches
  · exact ⟨told_initial, fun x hx ↦ by cases hx⟩

/-- Task 5 asks a question, the daemon restarts, the question is answered, and the task is resumed. -/
def answeredAfterRestart : List AnswerEvent :=
  [.desk (.writeStatus 5 .running), .start (.task 5) .auto [] none true "Deploy it.".toList [],
    .modelCall 0, .desk (.ask 0), .desk .restart,
    .answer (.task 5) ⟨.question, .task 5, 1⟩ "prod".toList,
    .start (.task 5) .auto [] (some "sid".toList) true "Deploy it.".toList [], .modelCall 1]

/-- The resumed session calls the model without the answer. -/
theorem not_answers_reach : ¬∀ (host : Host) (events : List AnswerEvent),
    ∀ before, before <+: events → (run (step host) {} before).AnswersReach := by
  intro h
  have hreach := (h ⟨⟨[], by simp⟩, ⟨[], by simp⟩⟩ answeredAfterRestart answeredAfterRestart
    (List.prefix_refl _)).reaches
  revert hreach
  decide +kernel

end AnswerDesk

end Flockctl.Sessions
