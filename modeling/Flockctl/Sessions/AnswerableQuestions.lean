import Flockctl.Sessions.Questions
import Flockctl.Transition.Run

/-!
# Questions that can be answered

A request id is built from the entity and a counter that starts at zero in every session, and the
table remembers all of them. While every question finds its id unused and its session in the map of
the executor, and no session with an open question is displaced there, every question has its own
pending row, answering it succeeds, and a waiting task has a row that answers it.
-/

namespace Flockctl.Sessions

open Collections Paths Permissions Tasks Transition

/-- The session waits for an answer. -/
def AgentSession.Asks (session : AgentSession) (requestId : RequestId) : Prop :=
  session.pendingInteractive.get requestId = some .question

instance (session : AgentSession) (requestId : RequestId) : Decidable (session.Asks requestId) :=
  match h : session.pendingInteractive.get requestId with
  | some .question => isTrue h
  | some (.permission _ _) => isFalse fun hasks ↦ by
      rw [AgentSession.Asks, h] at hasks
      cases hasks
  | none => isFalse fun hasks ↦ by
      rw [AgentSession.Asks, h] at hasks
      cases hasks

namespace QuestionDesk

/-- Every question a session waits on has a row of its own that is pending, and answering it
succeeds. A waiting task has a pending row, and answering it succeeds unless the session is being
aborted, after which its run ends. -/
structure EveryQuestionAnswerable (desk : QuestionDesk) : Prop where
  own_row : ∀ number session requestId, desk.sessions.get number = some session →
    session.ref ∉ desk.deleted → session.Asks requestId →
    desk.questions.get requestId = some ⟨session.ref, .pending, number⟩
  succeeds : ∀ number session requestId, desk.sessions.get number = some session →
    session.ref ∉ desk.deleted → session.Asks requestId →
    (desk.answerQuestion session.ref requestId).2 = true
  no_lost_wait : ∀ id, .task id ∉ desk.deleted → desk.statusOf id = .waitingForInput →
    ∃ requestId row, desk.questions.get requestId = some row ∧ row.ref = .task id ∧
      row.status = .pending ∧
      ((desk.answerQuestion (.task id) requestId).2 = true ∨
        ∃ number session, desk.registeredSession (.task id) = some (number, session) ∧
          session.aborted = true)

/-- No session in the executor's map waits on a question for the entity. -/
def quietAt (desk : QuestionDesk) (ref : AgentRef) : Bool :=
  match desk.registeredSession ref with
  | none => true
  | some (_, session) => session.pendingInteractive.entries.all fun entry ↦
      match entry.2 with
      | .question => false
      | .permission _ _ => true

/-- A question finds its request id unused and its session in the executor's map; a session enters
the map only in place of one without an open question, and while its task is not waiting; and the
end of a displaced session removes no session with an open question. -/
def keepsAnswerable (desk : QuestionDesk) : DeskEvent → Bool
  | .ask number =>
    match desk.sessions.get number with
    | none => true
    | some session =>
      session.aborted || desk.deleted.contains session.ref ||
        (!desk.questions.has ⟨.question, session.ref, session.questionCounter + 1⟩ &&
          desk.registered.get session.ref == some number)
  | .register ref _ _ =>
    desk.quietAt ref &&
      match ref with
      | .chat _ => true
      | .task id => desk.statusOf id != .waitingForInput
  | .finish number _ =>
    match desk.sessions.get number with
    | none => true
    | some session =>
      desk.registered.get session.ref == some number || desk.quietAt session.ref
  | .answer _ _ | .canUseTool _ _ _ | .resolvePermission _ _ | .updatePermissionMode _ _
  | .abort _ | .cancelChat _ | .restart | .deleteEntity _ | .writeStatus _ _ => true

/-- Every session with an open question is the one its executor knows, and the question has its
row; a waiting task either has such a session, or a pending row while no session of it is in
memory or the one that is is being aborted. -/
structure Attended (desk : QuestionDesk) : Prop where
  known : ∀ ref number, desk.registered.get ref = some number →
    ∃ session, desk.sessions.get number = some session ∧ session.ref = ref
  numbered : ∀ number session, desk.sessions.get number = some session → number < desk.created
  asking : ∀ number session requestId, desk.sessions.get number = some session →
    session.ref ∉ desk.deleted → session.Asks requestId →
    desk.registered.get session.ref = some number ∧
      desk.questions.get requestId = some ⟨session.ref, .pending, number⟩
  waiting : ∀ id, .task id ∉ desk.deleted → desk.statusOf id = .waitingForInput →
    (∃ number session requestId, desk.registered.get (.task id) = some number ∧
      desk.sessions.get number = some session ∧ session.Asks requestId) ∨
    ((∃ requestId row, desk.questions.get requestId = some row ∧ row.ref = .task id ∧
        row.status = .pending) ∧
      ∀ number session, desk.registered.get (.task id) = some number →
        desk.sessions.get number = some session → session.aborted = true)
  rows : ∀ requestId row, desk.questions.get requestId = some row → requestId.kind = .question

/-! ## Reading the desk -/

section

variable {desk : QuestionDesk}

theorem registeredSession_eq_some_iff (ref : AgentRef) (number : ℕ) (session : AgentSession) :
    desk.registeredSession ref = some (number, session) ↔
      desk.registered.get ref = some number ∧ desk.sessions.get number = some session := by
  unfold registeredSession
  cases hnumber : desk.registered.get ref with
  | none => simp
  | some other =>
    simp only [Option.map_eq_some_iff, Prod.mk.injEq, Option.some.injEq]
    constructor
    · rintro ⟨found, hfound, rfl, rfl⟩
      exact ⟨rfl, hfound⟩
    · rintro ⟨rfl, hfound⟩
      exact ⟨session, hfound, rfl, rfl⟩

theorem quietAt_eq_true_iff (ref : AgentRef) :
    desk.quietAt ref = true ↔ ∀ number session, desk.registered.get ref = some number →
      desk.sessions.get number = some session → ∀ requestId, ¬session.Asks requestId := by
  simp only [← and_imp, ← registeredSession_eq_some_iff]
  rw [quietAt]
  cases hregistered : desk.registeredSession ref with
  | none => simp
  | some found =>
    simp only [List.all_eq_true, Prod.forall, JsMap.mem_entries_iff, Option.some.injEq]
    constructor
    · rintro hquiet number session rfl requestId hasks
      exact absurd (hquiet requestId .question hasks) (by simp)
    · intro hquiet requestId entry hentry
      cases entry with
      | permission toolName input => rfl
      | question => exact absurd hentry (hquiet found.1 found.2 rfl requestId)

theorem answerQuestion_of_asks {ref : AgentRef} {requestId : RequestId} {row : QuestionRow}
    (hrow : desk.questions.get requestId = some row) (href : row.ref = ref)
    (hpending : row.status = .pending) {number : ℕ} {session : AgentSession}
    (hregistered : desk.registeredSession ref = some (number, session))
    (hasks : session.Asks requestId) : (desk.answerQuestion ref requestId).2 = true := by
  have hresolved : (session.resolveQuestion requestId).2 = true := by
    rw [AgentSession.resolveQuestion, show session.pendingInteractive.get requestId = _ from hasks]
  unfold answerQuestion
  rw [hrow]
  dsimp only
  rw [if_pos ⟨href, hpending⟩, hregistered]
  dsimp only
  rw [if_pos hresolved]
  cases ref with
  | chat id => rfl
  | task id =>
    dsimp only
    split <;> rfl

theorem answerQuestion_cold {id : TaskId} {requestId : RequestId} {row : QuestionRow}
    (hrow : desk.questions.get requestId = some row) (href : row.ref = .task id)
    (hpending : row.status = .pending) (hregistered : desk.registeredSession (.task id) = none)
    (hwaiting : desk.statusOf id = .waitingForInput) :
    (desk.answerQuestion (.task id) requestId).2 = true := by
  unfold answerQuestion
  rw [hrow]
  dsimp only
  rw [if_pos ⟨href, hpending⟩, hregistered]
  dsimp only
  rw [if_pos hwaiting]

/-- On an attended desk every question can be answered. -/
theorem Attended.everyQuestionAnswerable (h : Attended desk) : EveryQuestionAnswerable desk where
  own_row number session requestId hsession hlive hasks :=
    (h.asking number session requestId hsession hlive hasks).2
  succeeds number session requestId hsession hlive hasks := by
    obtain ⟨hregistered, hrow⟩ := h.asking number session requestId hsession hlive hasks
    exact answerQuestion_of_asks hrow rfl rfl
      ((registeredSession_eq_some_iff _ _ _).mpr ⟨hregistered, hsession⟩) hasks
  no_lost_wait id hlive hwaiting := by
    rcases h.waiting id hlive hwaiting with
      ⟨number, session, requestId, hregistered, hsession, hasks⟩ | ⟨hpending, haborted⟩
    · obtain ⟨found, hfound, href⟩ := h.known _ _ hregistered
      rw [hsession] at hfound
      cases hfound
      have hrow := (h.asking number session requestId hsession (href ▸ hlive) hasks).2
      have hknown : desk.registeredSession (.task id) = some (number, session) :=
        (registeredSession_eq_some_iff _ _ _).mpr ⟨hregistered, hsession⟩
      exact ⟨requestId, _, hrow, href, rfl,
        Or.inl (answerQuestion_of_asks hrow href rfl hknown hasks)⟩
    · obtain ⟨requestId, row, hrow, href, hstatus⟩ := hpending
      refine ⟨requestId, row, hrow, href, hstatus, ?_⟩
      cases hregistered : desk.registeredSession (.task id) with
      | none => exact Or.inl (answerQuestion_cold hrow href hstatus hregistered hwaiting)
      | some found =>
        obtain ⟨hnumber, hsession⟩ := (registeredSession_eq_some_iff _ found.1 found.2).mp hregistered
        exact Or.inr ⟨found.1, found.2, rfl, haborted found.1 found.2 hnumber hsession⟩

theorem statusOf_writeStatus (id : TaskId) (status : TaskStatus) (other : TaskId) :
    (desk.writeStatus id status).statusOf other =
      if other = id then status else desk.statusOf other := by
  rw [statusOf, writeStatus, JsMap.get_set, apply_ite (Option.getD · TaskStatus.queued)]
  rfl

theorem get_cancelPendingQuestions (entities : AgentRef → Bool) (requestId : RequestId)
    {row : QuestionRow} (hkept : entities row.ref = false)
    (hrow : desk.questions.get requestId = some row) :
    (desk.cancelPendingQuestions entities).questions.get requestId = some row := by
  simp [cancelPendingQuestions, JsMap.get_mapWithKey, hrow, hkept]

end

/-! ## Steps -/

namespace Attended

variable {desk : QuestionDesk}

theorem initial : Attended {} where
  known ref number hnumber := by cases hnumber
  numbered number session hsession := by cases hsession
  asking number session requestId hsession := by cases hsession
  waiting id hlive hwaiting := by cases hwaiting
  rows requestId row hrow := by cases hrow

section

variable (h : Attended desk)

include h

/-- The row of a task that waits with its session in memory. -/
theorem pending_row {id : TaskId} (hlive : .task id ∉ desk.deleted)
    {number : ℕ} {session : AgentSession} {requestId : RequestId}
    (hregistered : desk.registered.get (.task id) = some number)
    (hsession : desk.sessions.get number = some session) (hasks : session.Asks requestId) :
    ∃ requestId row, desk.questions.get requestId = some row ∧ row.ref = .task id ∧
      row.status = .pending := by
  obtain ⟨found, hfound, href⟩ := h.known _ _ hregistered
  rw [hsession] at hfound
  cases hfound
  exact ⟨requestId, _, (h.asking _ _ _ hsession (href ▸ hlive) hasks).2, href, rfl⟩

/-- A change of a session that opens only questions that are attended to, and closes one only by
aborting or while the task is not waiting. -/
theorem changeSession (number : ℕ) {change : AgentSession → AgentSession}
    (href : ∀ session, desk.sessions.get number = some session →
      (change session).ref = session.ref)
    (hopens : ∀ session, desk.sessions.get number = some session → ∀ requestId,
      (change session).Asks requestId → session.Asks requestId ∨ session.ref ∈ desk.deleted ∨
        (desk.registered.get session.ref = some number ∧
          desk.questions.get requestId = some ⟨session.ref, .pending, number⟩))
    (hcloses : ∀ session, desk.sessions.get number = some session → ∀ requestId,
      session.Asks requestId → (change session).Asks requestId ∨
        (change session).aborted = true ∨
          ∀ id, session.ref = .task id → session.ref ∉ desk.deleted →
            desk.statusOf id ≠ .waitingForInput)
    (haborted : ∀ session, session.aborted = true → (change session).aborted = true) :
    Attended (desk.changeSession number change) := by
  have hget (other : ℕ) : (desk.changeSession number change).sessions.get other =
      if other = number then (desk.sessions.get number).map change
      else desk.sessions.get other := JsMap.get_modify _ _ _ _
  have hsame : (desk.changeSession number change).sessions.get number =
      (desk.sessions.get number).map change := by rw [hget, if_pos rfl]
  have hother {other : ℕ} (hne : other ≠ number) :
      (desk.changeSession number change).sessions.get other = desk.sessions.get other := by
    rw [hget, if_neg hne]
  constructor
  · intro ref other hknown
    obtain ⟨before, hbefore, href'⟩ := h.known ref other hknown
    by_cases hne : other = number
    · rw [hne] at hbefore ⊢
      exact ⟨change before, by rw [hsame, hbefore]; rfl, (href before hbefore).trans href'⟩
    · exact ⟨before, (hother hne).trans hbefore, href'⟩
  · intro other session hsession
    by_cases hne : other = number
    · rw [hne, hsame] at hsession
      obtain ⟨before, hbefore, -⟩ := Option.map_eq_some_iff.mp hsession
      exact hne ▸ h.numbered number before hbefore
    · exact h.numbered other session ((hother hne).symm.trans hsession)
  · intro other session requestId hsession hlive hasks
    by_cases hne : other = number
    · rw [hne, hsame] at hsession
      obtain ⟨before, hbefore, rfl⟩ := Option.map_eq_some_iff.mp hsession
      rw [href before hbefore] at hlive ⊢
      rw [hne]
      rcases hopens before hbefore requestId hasks with hold | hdeleted | hattended
      · exact h.asking number before requestId hbefore hlive hold
      · exact absurd hdeleted hlive
      · exact hattended
    · exact h.asking other session requestId ((hother hne).symm.trans hsession) hlive hasks
  · intro id hlive hwaiting
    rcases h.waiting id hlive hwaiting with
      ⟨other, before, requestId, hknown, hbefore, hasks⟩ | ⟨hpending, hdying⟩
    · by_cases hne : other = number
      · rw [hne] at hknown hbefore
        rcases hcloses before hbefore requestId hasks with hstill | hdead | hrunning
        · exact Or.inl ⟨number, change before, requestId, hknown,
            by rw [hsame, hbefore]; rfl, hstill⟩
        · refine Or.inr ⟨h.pending_row hlive hknown hbefore hasks, ?_⟩
          intro found session hfound hsession
          have hfoundNumber : found = number := Option.some.inj (hfound.symm.trans hknown)
          rw [hfoundNumber, hsame, hbefore] at hsession
          cases hsession
          exact hdead
        · obtain ⟨session, hsession, href'⟩ := h.known _ _ hknown
          rw [hbefore] at hsession
          cases hsession
          exact absurd hwaiting (hrunning id href' (href' ▸ hlive))
      · exact Or.inl ⟨other, before, requestId, hknown, (hother hne).trans hbefore, hasks⟩
    · refine Or.inr ⟨hpending, ?_⟩
      intro found session hfound hsession
      by_cases hne : found = number
      · rw [hne, hsame] at hsession
        obtain ⟨before, hbefore, rfl⟩ := Option.map_eq_some_iff.mp hsession
        exact haborted before (hdying found before hfound (hne ▸ hbefore))
      · exact hdying found session hfound ((hother hne).symm.trans hsession)
  · exact h.rows

theorem writeStatus (id : TaskId) {status : TaskStatus}
    (hstatus : status = .waitingForInput → desk.statusOf id = .waitingForInput) :
    Attended (desk.writeStatus id status) := by
  refine ⟨h.known, h.numbered, h.asking, ?_, h.rows⟩
  intro other hlive hwaiting
  rw [statusOf_writeStatus] at hwaiting
  split at hwaiting
  · rename_i hother
    exact h.waiting other hlive (hother ▸ hstatus hwaiting)
  · exact h.waiting other hlive hwaiting

/-- The table and the deleted entities change, and the rows that sessions ask for and that tasks wait
with stay. -/
theorem changeQuestions {questions : JsMap RequestId QuestionRow}
    {deleted : List AgentRef} (hdeleted : desk.deleted ⊆ deleted)
    (hasked : ∀ number session requestId, desk.sessions.get number = some session →
      session.ref ∉ deleted → session.Asks requestId →
      desk.questions.get requestId = some ⟨session.ref, .pending, number⟩ →
      questions.get requestId = some ⟨session.ref, .pending, number⟩)
    (hwaited : ∀ id requestId row, .task id ∉ deleted → desk.statusOf id = .waitingForInput →
      desk.questions.get requestId = some row → row.ref = .task id → row.status = .pending →
      questions.get requestId = some row)
    (hrows : ∀ requestId row, questions.get requestId = some row → requestId.kind = .question) :
    Attended { desk with questions := questions, deleted := deleted } := by
  refine ⟨h.known, h.numbered, ?_, ?_, hrows⟩
  · intro number session requestId hsession hlive hasks
    obtain ⟨hknown, hrow⟩ :=
      h.asking number session requestId hsession (fun hmem ↦ hlive (hdeleted hmem)) hasks
    exact ⟨hknown, hasked number session requestId hsession hlive hasks hrow⟩
  · intro id hlive hwaiting
    refine (h.waiting id (fun hmem ↦ hlive (hdeleted hmem)) hwaiting).imp_right
      fun ⟨hpending, hdying⟩ ↦ ⟨?_, hdying⟩
    obtain ⟨requestId, row, hrow, href, hstatus⟩ := hpending
    exact ⟨requestId, row, hwaited id requestId row hlive hwaiting hrow href hstatus, href, hstatus⟩

/-- A row is added under an unused request id. -/
theorem addRow {requestId : RequestId} (hkind : requestId.kind = .question)
    (row : QuestionRow) (hunused : desk.questions.get requestId = none) :
    Attended { desk with questions := desk.questions.set requestId row } := by
  have hkept {other : RequestId} {stored : QuestionRow}
      (hstored : desk.questions.get other = some stored) :
      (desk.questions.set requestId row).get other = some stored := by
    rw [JsMap.get_set_of_ne _ _ fun hsame ↦ ?_]
    · exact hstored
    · rw [hsame, hunused] at hstored
      cases hstored
  apply h.changeQuestions (List.Subset.refl _)
  · exact fun _ _ _ _ _ _ hstored ↦ hkept hstored
  · exact fun _ _ _ _ _ hstored _ _ ↦ hkept hstored
  · intro other stored hstored
    rw [JsMap.get_set] at hstored
    split at hstored
    · rename_i hsame
      exact hsame ▸ hkind
    · exact h.rows other stored hstored

/-- A row no session asks for changes while its task is not waiting. -/
theorem changeRow {requestId : RequestId} {row : QuestionRow}
    (hrow : desk.questions.get requestId = some row) (after : QuestionRow)
    (hstatus : ∀ id, row.ref = .task id → desk.statusOf id ≠ .waitingForInput)
    (hunasked : ∀ number session, desk.sessions.get number = some session →
      session.ref ∉ desk.deleted → ¬session.Asks requestId) :
    Attended { desk with questions := desk.questions.set requestId after } := by
  apply h.changeQuestions (List.Subset.refl _)
  · intro number session other hsession hlive hasks hstored
    rw [JsMap.get_set_of_ne _ _ fun hsame ↦ ?_]
    · exact hstored
    · exact hunasked number session hsession hlive (hsame ▸ hasks)
  · intro id other stored _ hwaiting hstored href _
    rw [JsMap.get_set_of_ne _ _ fun hsame ↦ ?_]
    · exact hstored
    · rw [hsame, hrow] at hstored
      cases hstored
      exact hstatus id href hwaiting
  · intro other stored hstored
    rw [JsMap.get_set] at hstored
    split at hstored
    · rename_i hsame
      exact hsame ▸ h.rows requestId row hrow
    · exact h.rows other stored hstored

theorem register {ref : AgentRef} (hquiet : desk.quietAt ref = true)
    (hstatus : ∀ id, ref = .task id → desk.statusOf id ≠ .waitingForInput)
    (mode : PermissionMode) (roots : List AbsolutePath) :
    Attended (desk.register ref mode roots) := by
  have hsessions (number : ℕ) : (desk.register ref mode roots).sessions.get number =
      if number = desk.created then
        some { ref := ref, permissionMode := mode, allowedRoots := roots }
      else desk.sessions.get number := JsMap.get_set _ _ _ _
  have hregistered (other : AgentRef) : (desk.register ref mode roots).registered.get other =
      if other = ref then some desk.created else desk.registered.get other :=
    JsMap.get_set _ _ _ _
  have hold {number : ℕ} {session : AgentSession}
      (hsession : desk.sessions.get number = some session) :
      (desk.register ref mode roots).sessions.get number = some session := by
    rw [hsessions, if_neg (h.numbered number session hsession).ne]
    exact hsession
  constructor
  · intro other number hnumber
    rw [hregistered] at hnumber
    split at hnumber
    · rename_i hother
      cases hnumber
      exact ⟨_, by rw [hsessions, if_pos rfl], hother.symm⟩
    · obtain ⟨session, hsession, hsame⟩ := h.known other number hnumber
      exact ⟨session, hold hsession, hsame⟩
  · intro number session hsession
    rw [hsessions] at hsession
    split at hsession
    · rename_i hnumber
      exact hnumber ▸ Nat.lt_succ_self _
    · exact (h.numbered number session hsession).trans (Nat.lt_succ_self _)
  · intro number session requestId hsession hlive hasks
    rw [hsessions] at hsession
    split at hsession
    · cases hsession
      cases hasks
    · obtain ⟨hknown, hrow⟩ := h.asking number session requestId hsession hlive hasks
      rw [hregistered]
      split
      · rename_i hsame
        rw [hsame] at hknown
        exact absurd hasks
          ((quietAt_eq_true_iff ref).mp hquiet number session hknown hsession requestId)
      · exact ⟨hknown, hrow⟩
  · intro id hlive hwaiting
    have hother : .task id ≠ ref := fun hsame ↦ hstatus id hsame.symm hwaiting
    rw [hregistered, if_neg hother]
    rcases h.waiting id hlive hwaiting with
      ⟨number, session, requestId, hnumber, hsession, hasks⟩ | ⟨hpending, hdying⟩
    · exact Or.inl ⟨number, session, requestId, hnumber, hold hsession, hasks⟩
    · refine Or.inr ⟨hpending, ?_⟩
      intro number session hnumber hsession
      obtain ⟨known, hknown, -⟩ := h.known _ _ hnumber
      rw [hold hknown] at hsession
      cases hsession
      exact hdying number session hnumber hknown
  · exact h.rows

theorem rows_cancelPendingQuestions (entities : AgentRef → Bool)
    {requestId : RequestId} {row : QuestionRow}
    (hrow : (desk.cancelPendingQuestions entities).questions.get requestId = some row) :
    requestId.kind = .question := by
  rw [QuestionDesk.cancelPendingQuestions, JsMap.get_mapWithKey] at hrow
  obtain ⟨before, hbefore, -⟩ := Option.map_eq_some_iff.mp hrow
  exact h.rows requestId before hbefore

/-- The rows of some entities change while no session of theirs waits, and none is a task. -/
theorem cancelPendingQuestions {entities : AgentRef → Bool}
    (htask : ∀ id, entities (.task id) = false)
    (hquiet : ∀ number session requestId, desk.sessions.get number = some session →
      session.ref ∉ desk.deleted → entities session.ref = true → ¬session.Asks requestId) :
    Attended (desk.cancelPendingQuestions entities) := by
  apply h.changeQuestions (List.Subset.refl _)
  · intro number session requestId hsession hlive hasks hrow
    refine get_cancelPendingQuestions entities requestId ?_ hrow
    exact eq_false_of_ne_true fun hentity ↦
      hquiet number session requestId hsession hlive hentity hasks
  · intro id requestId row _ _ hrow href _
    exact get_cancelPendingQuestions entities requestId (href ▸ htask id) hrow
  · exact fun requestId row hrow ↦ h.rows_cancelPendingQuestions entities hrow

theorem abort (number : ℕ) : Attended (desk.changeSession number AgentSession.abort) := by
  apply h.changeSession number
  · exact fun _ _ ↦ rfl
  · intro session hsession requestId hasks
    cases hasks
  · exact fun _ _ _ _ ↦ Or.inr (Or.inl rfl)
  · exact fun _ _ ↦ rfl

theorem cancelChat (id : ℕ) : Attended (desk.cancelChat id) := by
  have hentity (ref : AgentRef) (href : decide (ref = .chat id) = true) : ref = .chat id :=
    of_decide_eq_true href
  unfold QuestionDesk.cancelChat
  cases hnumber : desk.registered.get (.chat id) with
  | none =>
    apply h.cancelPendingQuestions fun _ ↦ rfl
    intro number session requestId hsession hlive href hasks
    have hknown := (h.asking number session requestId hsession hlive hasks).1
    rw [hentity _ href, hnumber] at hknown
    cases hknown
  | some number =>
    -- aborting first leaves no session of the chat waiting
    have haborted := h.abort number
    change Attended ((desk.changeSession number AgentSession.abort).cancelPendingQuestions
      (· = .chat id))
    apply haborted.cancelPendingQuestions fun _ ↦ rfl
    intro other session requestId hsession hlive href hasks
    have hknown := (haborted.asking other session requestId hsession hlive hasks).1
    rw [hentity _ href] at hknown
    have hsame : other = number := Option.some.inj (hknown.symm.trans hnumber)
    rw [hsame, QuestionDesk.changeSession, JsMap.get_modify, if_pos rfl] at hsession
    obtain ⟨before, -, rfl⟩ := Option.map_eq_some_iff.mp hsession
    cases hasks

theorem restart : Attended desk.restart := by
  constructor
  · intro ref number hnumber
    cases hnumber
  · intro number session hsession
    cases hsession
  · intro number session requestId hsession
    cases hsession
  · intro id hlive hwaiting
    have hbefore : desk.statusOf id = .waitingForInput := by
      rw [statusOf, QuestionDesk.restart, JsMap.get_mapWithKey] at hwaiting
      rw [statusOf]
      cases hstatus : desk.statuses.get id with
      | none => simp [hstatus] at hwaiting
      | some status =>
        rw [hstatus, Option.map_some, Option.getD_some] at hwaiting
        split at hwaiting
        · cases hwaiting
        · exact hwaiting
    have hpending : ∃ requestId row, desk.questions.get requestId = some row ∧
        row.ref = .task id ∧ row.status = .pending := by
      rcases h.waiting id hlive hbefore with
        ⟨number, session, requestId, hnumber, hsession, hasks⟩ | ⟨hpending, -⟩
      · exact h.pending_row hlive hnumber hsession hasks
      · exact hpending
    obtain ⟨requestId, row, hrow, href, hstatus⟩ := hpending
    refine Or.inr ⟨⟨requestId, row, ?_, href, hstatus⟩, ?_⟩
    · exact get_cancelPendingQuestions AgentRef.isChat requestId (by rw [href]; rfl) hrow
    · intro number session hnumber
      cases hnumber
  · exact fun requestId row hrow ↦ h.rows_cancelPendingQuestions AgentRef.isChat hrow

theorem deleteEntity (ref : AgentRef) : Attended (desk.deleteEntity ref) := by
  have hkept {requestId : RequestId} {row : QuestionRow} (hother : row.ref ≠ ref)
      (hrow : desk.questions.get requestId = some row) :
      (desk.deleteEntity ref).questions.get requestId = some row := by
    rw [QuestionDesk.deleteEntity, JsMap.get_filter, hrow, Option.filter_some,
      if_pos (decide_eq_true hother)]
  apply h.changeQuestions (List.subset_cons_self _ _)
  · intro number session requestId _ hlive _ hrow
    exact hkept (not_or.mp (List.mem_cons.not.mp hlive)).1 hrow
  · intro id requestId row hlive _ hrow href _
    exact hkept (href ▸ (not_or.mp (List.mem_cons.not.mp hlive)).1) hrow
  · intro requestId row hrow
    rw [JsMap.get_filter, Option.filter_eq_some_iff] at hrow
    exact h.rows requestId row hrow.1

end

theorem settledStatus_waiting {current : TaskStatus} {outcome : SessionOutcome}
    (hsettled : settledStatus current outcome = .waitingForInput) :
    current = .waitingForInput := by
  cases outcome with
  | shutdown => exact hsettled
  | cancelled | rateLimited => cases hsettled
  | done | pendingApproval | failed | timedOut =>
    simp only [settledStatus] at hsettled
    split at hsettled
    · exact hsettled
    · cases hsettled

/-- A session ends, and the executor's map loses the session it holds for the entity, which has no
open question unless it is the one that ends. -/
theorem leave (h : Attended desk) {number : ℕ} {session : AgentSession}
    (hsession : desk.sessions.get number = some session)
    (hallowed : desk.registered.get session.ref = some number ∨
      desk.quietAt session.ref = true) :
    Attended
      { desk with
        sessions := desk.sessions.delete number
        registered := desk.registered.delete session.ref } := by
  have hnumber {other : ℕ} {found : AgentSession}
      (hfound : desk.sessions.get other = some found) (href : found.ref ≠ session.ref) :
      (desk.sessions.delete number).get other = some found := by
    rw [JsMap.get_delete_of_ne _ fun hsame ↦ ?_]
    · exact hfound
    · rw [hsame, hsession] at hfound
      cases hfound
      exact href rfl
  have hthere {other : ℕ} {found : AgentSession}
      (hfound : (desk.sessions.delete number).get other = some found) :
      other ≠ number ∧ desk.sessions.get other = some found :=
    JsMap.get_delete_eq_some_iff.mp hfound
  constructor
  · intro ref other hknown
    obtain ⟨href, hknown⟩ := JsMap.get_delete_eq_some_iff.mp hknown
    obtain ⟨found, hfound, hsame⟩ := h.known ref other hknown
    exact ⟨found, hnumber hfound (hsame ▸ href), hsame⟩
  · intro other found hfound
    exact h.numbered other found (hthere hfound).2
  · intro other found requestId hfound hlive hasks
    obtain ⟨hne, hfound⟩ := hthere hfound
    obtain ⟨hknown, hrow⟩ := h.asking other found requestId hfound hlive hasks
    refine ⟨?_, hrow⟩
    rw [JsMap.get_delete_of_ne _ fun hsame ↦ ?_]
    · exact hknown
    · rw [hsame] at hknown
      rcases hallowed with hown | hquiet
      · exact hne (Option.some.inj (hknown.symm.trans hown))
      · exact (quietAt_eq_true_iff _).mp hquiet other found hknown hfound requestId hasks
  · intro id hlive hwaiting
    by_cases href : AgentRef.task id = session.ref
    · refine Or.inr ⟨?_, ?_⟩
      · rcases h.waiting id hlive hwaiting with
          ⟨other, found, requestId, hknown, hfound, hasks⟩ | ⟨hpending, -⟩
        · exact h.pending_row hlive hknown hfound hasks
        · exact hpending
      · intro other found hknown
        rw [href, JsMap.get_delete_self] at hknown
        cases hknown
    · rw [JsMap.get_delete_of_ne _ href]
      rcases h.waiting id hlive hwaiting with
        ⟨other, found, requestId, hknown, hfound, hasks⟩ | ⟨hpending, hdying⟩
      · obtain ⟨session, hthis, hsame⟩ := h.known _ _ hknown
        rw [hfound] at hthis
        cases hthis
        exact Or.inl ⟨other, found, requestId, hknown, hnumber hfound (hsame ▸ href), hasks⟩
      · refine Or.inr ⟨hpending, ?_⟩
        intro other found hknown hfound
        exact hdying other found hknown (hthere hfound).2
  · exact h.rows

theorem finish (h : Attended desk) (number : ℕ) (outcome : SessionOutcome)
    (hallowed : desk.keepsAnswerable (.finish number outcome) = true) :
    Attended (desk.finish number outcome) := by
  unfold QuestionDesk.finish
  cases hsession : desk.sessions.get number with
  | none => exact h
  | some session =>
    simp only [keepsAnswerable, hsession, Bool.or_eq_true, beq_iff_eq] at hallowed
    have hended := h.leave hsession hallowed
    dsimp only
    split
    · exact hended
    · exact hended.writeStatus _ settledStatus_waiting

/-! ## Asking and answering -/

theorem awaitUserAnswer_asks (session : AgentSession) (requestId : RequestId)
    (hasks : session.awaitUserAnswer.1.Asks requestId) :
    session.Asks requestId ∨ (session.aborted = false ∧
      requestId = ⟨.question, session.ref, session.questionCounter + 1⟩) := by
  unfold AgentSession.awaitUserAnswer at hasks
  cases haborted : session.aborted with
  | true =>
    rw [haborted] at hasks
    exact Or.inl hasks
  | false =>
    rw [haborted, AgentSession.Asks] at hasks
    change (session.pendingInteractive.set _ _).get requestId = _ at hasks
    rw [JsMap.get_set] at hasks
    split at hasks
    · rename_i hsame
      exact Or.inr ⟨rfl, hsame⟩
    · exact Or.inl hasks

theorem asks_awaitUserAnswer (session : AgentSession) (requestId : RequestId)
    (hasks : session.Asks requestId) : session.awaitUserAnswer.1.Asks requestId := by
  unfold AgentSession.awaitUserAnswer
  cases session.aborted with
  | true => exact hasks
  | false =>
    change (session.pendingInteractive.set _ _).get requestId = _
    rw [JsMap.get_set]
    split
    · rfl
    · exact hasks

theorem awaitUserAnswer_of_running {session : AgentSession} (hrunning : session.aborted = false) :
    session.awaitUserAnswer.2 = some ⟨.question, session.ref, session.questionCounter + 1⟩ ∧
      session.awaitUserAnswer.1.Asks ⟨.question, session.ref, session.questionCounter + 1⟩ := by
  simp [AgentSession.awaitUserAnswer, hrunning, AgentSession.Asks]

/-- A session whose question finds its row attended to asks. -/
theorem openQuestion (h : Attended desk) {number : ℕ} {session : AgentSession}
    (hsession : desk.sessions.get number = some session)
    (hattended : session.aborted = false → session.ref ∈ desk.deleted ∨
      (desk.registered.get session.ref = some number ∧
        desk.questions.get ⟨.question, session.ref, session.questionCounter + 1⟩ =
          some ⟨session.ref, .pending, number⟩)) :
    Attended (desk.changeSession number fun session ↦ session.awaitUserAnswer.1) := by
  apply h.changeSession number
  · intro session _
    unfold AgentSession.awaitUserAnswer
    cases session.aborted <;> rfl
  · intro found hfound requestId hasks
    rw [hsession] at hfound
    cases hfound
    rcases awaitUserAnswer_asks session requestId hasks with hold | ⟨haborted, rfl⟩
    · exact Or.inl hold
    · exact Or.inr (hattended haborted)
  · intro session _ requestId hasks
    exact Or.inl (asks_awaitUserAnswer session requestId hasks)
  · intro session haborted
    unfold AgentSession.awaitUserAnswer
    rw [haborted]
    rfl

/-- A task waits once its session asks. -/
theorem wait (h : Attended desk) (id : TaskId) {number : ℕ} {session : AgentSession}
    {requestId : RequestId} (hknown : desk.registered.get (.task id) = some number)
    (hsession : desk.sessions.get number = some session) (hasks : session.Asks requestId) :
    Attended (desk.writeStatus id .waitingForInput) := by
  refine ⟨h.known, h.numbered, h.asking, ?_, h.rows⟩
  intro other hlive hwaiting
  rw [statusOf_writeStatus] at hwaiting
  split at hwaiting
  · rename_i hother
    rw [hother]
    exact Or.inl ⟨number, session, requestId, hknown, hsession, hasks⟩
  · exact h.waiting other hlive hwaiting

/-- The question of a deleted entity leaves no trace in the table. -/
theorem ask_of_deleted (h : Attended desk) {number : ℕ} {session : AgentSession}
    (hsession : desk.sessions.get number = some session) (hrunning : session.aborted = false)
    (hdeleted : session.ref ∈ desk.deleted) : Attended (desk.ask number) := by
  have hopened := h.openQuestion hsession fun _ ↦ Or.inl hdeleted
  have hcontains : desk.deleted.contains session.ref = true :=
    List.contains_iff_mem.mpr hdeleted
  simp only [QuestionDesk.ask, hsession, (awaitUserAnswer_of_running hrunning).1,
    handleQuestionEmitted, persistAgentQuestion, QuestionDesk.changeSession, hcontains,
    Bool.or_true, Bool.not_true, Bool.false_and, if_true, Bool.false_eq_true, if_false]
  split <;> exact hopened

/-- A question that finds its request id unused gets its row, and its task waits with it. -/
theorem ask_of_unused (h : Attended desk) {number : ℕ} {session : AgentSession}
    (hsession : desk.sessions.get number = some session) (hrunning : session.aborted = false)
    (hlive : session.ref ∉ desk.deleted)
    (hfree : desk.questions.has ⟨.question, session.ref, session.questionCounter + 1⟩ = false)
    (hknown : desk.registered.get session.ref = some number) : Attended (desk.ask number) := by
  obtain ⟨hemitted, hasking⟩ := awaitUserAnswer_of_running hrunning
  have hcontains : desk.deleted.contains session.ref = false :=
    eq_false_of_ne_true fun hmem ↦ hlive (List.contains_iff_mem.mp hmem)
  have hunused : desk.questions.get ⟨.question, session.ref, session.questionCounter + 1⟩ = none :=
    Option.isNone_iff_eq_none.mp (by simpa [JsMap.has] using hfree)
  have hadded := h.addRow rfl ⟨session.ref, .pending, number⟩ hunused
  have hopened := hadded.openQuestion hsession fun _ ↦ Or.inr ⟨hknown, JsMap.get_set_self _ _ _⟩
  simp only [QuestionDesk.ask, hsession, hemitted, handleQuestionEmitted, persistAgentQuestion,
    QuestionDesk.changeSession, hcontains, hfree, Bool.or_false, Bool.not_false, Bool.true_and,
    Bool.false_eq_true, if_false]
  split
  · exact hopened
  · rename_i id href
    split
    · refine hopened.wait id (href ▸ hknown) ?_ hasking
      rw [QuestionDesk.changeSession, JsMap.get_modify, if_pos rfl, hsession]
      rfl
    · exact hopened

theorem ask (h : Attended desk) (number : ℕ)
    (hallowed : desk.keepsAnswerable (.ask number) = true) : Attended (desk.ask number) := by
  cases hsession : desk.sessions.get number with
  | none =>
    rw [QuestionDesk.ask, hsession]
    exact h
  | some session =>
    simp only [keepsAnswerable, hsession, Bool.or_eq_true, Bool.and_eq_true, Bool.not_eq_true',
      beq_iff_eq, List.contains_iff_mem] at hallowed
    cases hrunning : session.aborted with
    | true =>
      have hsilent : session.awaitUserAnswer.2 = none := by
        simp [AgentSession.awaitUserAnswer, hrunning]
      simp only [QuestionDesk.ask, hsession, hsilent]
      exact h.openQuestion hsession fun hnot ↦ absurd (hrunning.symm.trans hnot) (by simp)
    | false =>
      by_cases hdeleted : session.ref ∈ desk.deleted
      · exact h.ask_of_deleted hsession hrunning hdeleted
      · rcases hallowed with (habort | hgone) | ⟨hfree, hknown⟩
        · exact absurd (hrunning.symm.trans habort) (by simp)
        · exact absurd hgone hdeleted
        · exact h.ask_of_unused hsession hrunning hdeleted hfree hknown

theorem resolveQuestion_asks (session : AgentSession) {requestId other : RequestId}
    (hasks : (session.resolveQuestion requestId).1.Asks other) :
    session.Asks other ∧ other ≠ requestId := by
  unfold AgentSession.resolveQuestion at hasks
  split at hasks
  · rw [AgentSession.Asks] at hasks
    dsimp only at hasks
    obtain ⟨hne, hasks⟩ := JsMap.get_delete_eq_some_iff.mp hasks
    exact ⟨hasks, hne⟩
  · rename_i hnot
    refine ⟨hasks, ?_⟩
    rintro rfl
    exact hnot hasks

/-- A session gets its answer while its task is not waiting. -/
theorem resolve (h : Attended desk) {ref : AgentRef} {requestId : RequestId} {row : QuestionRow}
    (hrow : desk.questions.get requestId = some row) (href : row.ref = ref) {number : ℕ}
    {session : AgentSession} (hknown : desk.registered.get ref = some number)
    (hsession : desk.sessions.get number = some session)
    (hstatus : ∀ id, ref = .task id → desk.statusOf id ≠ .waitingForInput) (after : QuestionRow) :
    Attended
      { desk.changeSession number fun session ↦ (session.resolveQuestion requestId).1 with
        questions := desk.questions.set requestId after } := by
  have hown : session.ref = ref := by
    obtain ⟨found, hfound, hsame⟩ := h.known ref number hknown
    rw [hsession] at hfound
    cases hfound
    exact hsame
  have hclosed : Attended
      (desk.changeSession number fun session ↦ (session.resolveQuestion requestId).1) := by
    apply h.changeSession number
    · intro session _
      unfold AgentSession.resolveQuestion
      split <;> rfl
    · intro session _ other hasks
      exact Or.inl (resolveQuestion_asks session hasks).1
    · intro found hfound other _
      rw [hsession] at hfound
      cases hfound
      exact Or.inr (Or.inr fun id hid _ ↦ hstatus id (hown ▸ hid))
    · intro session haborted
      unfold AgentSession.resolveQuestion
      split <;> exact haborted
  apply hclosed.changeRow hrow after (href ▸ hstatus)
  intro other found hfound hlive hasks
  have hstored : desk.questions.get requestId = some ⟨found.ref, .pending, other⟩ :=
    (hclosed.asking other found requestId hfound hlive hasks).2
  have hsame : found.ref = ref := by
    rw [hrow] at hstored
    cases hstored
    exact href
  have hother : other = number := by
    have hregistered : desk.registered.get found.ref = some other :=
      (hclosed.asking other found requestId hfound hlive hasks).1
    rw [hsame, hknown] at hregistered
    exact (Option.some.inj hregistered).symm
  rw [hother, QuestionDesk.changeSession, JsMap.get_modify, if_pos rfl] at hfound
  obtain ⟨before, -, rfl⟩ := Option.map_eq_some_iff.mp hfound
  exact (resolveQuestion_asks before hasks).2 rfl

/-- A row is answered while no session of its task is in memory. -/
theorem answerCold (h : Attended desk) {id : TaskId} {requestId : RequestId} {row : QuestionRow}
    (hrow : desk.questions.get requestId = some row) (href : row.ref = .task id)
    (hregistered : desk.registeredSession (.task id) = none) (after : QuestionRow) :
    Attended ({ desk with questions := desk.questions.set requestId after }.writeStatus id
      .queued) := by
  have hqueued : Attended (desk.writeStatus id .queued) :=
    h.writeStatus id fun hwaiting ↦ by cases hwaiting
  apply hqueued.changeRow hrow after
  · intro other hother
    rw [href] at hother
    cases hother
    rw [statusOf_writeStatus, if_pos rfl]
    simp
  · intro number session hsession hlive hasks
    obtain ⟨hknown, hstored⟩ := h.asking number session requestId hsession hlive hasks
    rw [hrow] at hstored
    cases hstored
    rw [show session.ref = .task id from href] at hknown
    have hfound := (registeredSession_eq_some_iff _ _ _).mpr ⟨hknown, hsession⟩
    rw [hregistered] at hfound
    cases hfound

theorem answer (h : Attended desk) (ref : AgentRef) (requestId : RequestId) :
    Attended (desk.answerQuestion ref requestId).1 := by
  unfold answerQuestion
  cases hrow : desk.questions.get requestId with
  | none => exact h
  | some row =>
    dsimp only
    split
    · rename_i hpending
      cases hregistered : desk.registeredSession ref with
      | some found =>
        obtain ⟨number, session⟩ := found
        obtain ⟨hknown, hsession⟩ := (registeredSession_eq_some_iff _ _ _).mp hregistered
        dsimp only
        split
        · cases ref with
          | chat id =>
            exact h.resolve hrow hpending.1 hknown hsession (fun _ hchat ↦ by cases hchat) _
          | task id =>
            dsimp only
            split
            · have hrunning : Attended (desk.writeStatus id .running) :=
                h.writeStatus id fun hwaiting ↦ by cases hwaiting
              apply hrunning.resolve hrow hpending.1 hknown hsession
              intro other hother
              cases hother
              rw [statusOf_writeStatus, if_pos rfl]
              simp
            · rename_i hrefused
              apply h.resolve hrow hpending.1 hknown hsession
              intro other hother hwaiting
              cases hother
              rw [hwaiting] at hrefused
              exact hrefused rfl
        · exact h
      | none =>
        cases ref with
        | chat id => exact h
        | task id =>
          dsimp only
          split
          · exact h.answerCold hrow hpending.1 hregistered _
          · exact h
    · exact h

/-! ## Permissions leave questions alone -/

theorem keepQuestions (h : Attended desk) (number : ℕ) {change : AgentSession → AgentSession}
    (href : ∀ session, (change session).ref = session.ref)
    (haborted : ∀ session, (change session).aborted = session.aborted)
    (hopens : ∀ session requestId, (change session).Asks requestId → session.Asks requestId)
    (hkeeps : ∀ session requestId, requestId.kind = .question → session.Asks requestId →
      (change session).Asks requestId) :
    Attended (desk.changeSession number change) := by
  apply h.changeSession number
  · exact fun session _ ↦ href session
  · exact fun session _ requestId hasks ↦ Or.inl (hopens session requestId hasks)
  · intro session hsession requestId hasks
    by_cases hlive : session.ref ∈ desk.deleted
    · exact Or.inr (Or.inr fun _ _ hnot ↦ absurd hlive hnot)
    · have hrow := (h.asking number session requestId hsession hlive hasks).2
      exact Or.inl (hkeeps session requestId (h.rows requestId _ hrow) hasks)
  · exact fun session hdead ↦ (haborted session).trans hdead

/-- A tool call leaves the session with its open requests, or with one permission more. -/
theorem canUseTool_frame (host : Host) (session : AgentSession) (toolName : String)
    (input : ToolInput) : ∃ counter pending,
      (session.canUseTool host toolName input).1 =
        { session with permissionCounter := counter, pendingInteractive := pending } ∧
      (pending = session.pendingInteractive ∨ pending = session.pendingInteractive.set
        ⟨.permission, session.ref, session.permissionCounter + 1⟩
        (.permission toolName input)) := by
  unfold AgentSession.canUseTool
  split
  · exact ⟨_, _, rfl, Or.inl rfl⟩
  · exact ⟨_, _, rfl, Or.inl rfl⟩
  · cases session.aborted with
    | true => exact ⟨_, _, rfl, Or.inl rfl⟩
    | false => exact ⟨_, _, rfl, Or.inr rfl⟩

theorem canUseTool (h : Attended desk) (host : Host) (number : ℕ) (toolName : String)
    (input : ToolInput) :
    Attended (desk.changeSession number fun session ↦
      (session.canUseTool host toolName input).1) := by
  apply h.keepQuestions number
  · intro session
    obtain ⟨counter, pending, heq, -⟩ := canUseTool_frame host session toolName input
    rw [heq]
  · intro session
    obtain ⟨counter, pending, heq, -⟩ := canUseTool_frame host session toolName input
    rw [heq]
  · intro session requestId hasks
    obtain ⟨counter, pending, heq, hsame | hset⟩ := canUseTool_frame host session toolName input
    · rwa [heq, hsame] at hasks
    · rw [heq, hset, AgentSession.Asks, JsMap.get_set] at hasks
      split at hasks
      · cases hasks
      · exact hasks
  · intro session requestId hkind hasks
    obtain ⟨counter, pending, heq, hsame | hset⟩ := canUseTool_frame host session toolName input
    · rwa [heq, hsame]
    · rw [heq, hset, AgentSession.Asks, JsMap.get_set_of_ne]
      · exact hasks
      · rintro rfl
        cases hkind

theorem resolvePermission (h : Attended desk) (number : ℕ) (requestId : RequestId) :
    Attended (desk.changeSession number fun session ↦
      (session.resolvePermission requestId).1) := by
  apply h.keepQuestions number
  · intro session
    unfold AgentSession.resolvePermission
    split <;> rfl
  · intro session
    unfold AgentSession.resolvePermission
    split <;> rfl
  · intro session other hasks
    unfold AgentSession.resolvePermission at hasks
    split at hasks
    · rw [AgentSession.Asks, JsMap.get_delete] at hasks
      split at hasks
      · cases hasks
      · exact hasks
    · exact hasks
  · intro session other _ hasks
    unfold AgentSession.resolvePermission
    split
    · rename_i hpermission
      rw [AgentSession.Asks, JsMap.get_delete_of_ne]
      · exact hasks
      · rintro rfl
        rw [show session.pendingInteractive.get other = some .question from hasks] at hpermission
        cases hpermission
    · exact hasks

theorem updatePermissionMode (h : Attended desk) (host : Host) (number : ℕ)
    (mode : PermissionMode) :
    Attended (desk.changeSession number fun session ↦
      session.updatePermissionMode host mode) := by
  apply h.keepQuestions number
  · intro session
    unfold AgentSession.updatePermissionMode
    split <;> rfl
  · intro session
    unfold AgentSession.updatePermissionMode
    split <;> rfl
  · intro session requestId hasks
    unfold AgentSession.updatePermissionMode at hasks
    split at hasks
    · exact hasks
    · rw [AgentSession.Asks, AgentSession.autoResolvePendingForMode, JsMap.get_filter,
        Option.filter_eq_some_iff] at hasks
      exact hasks.1
  · intro session requestId _ hasks
    unfold AgentSession.updatePermissionMode
    split
    · exact hasks
    · rw [AgentSession.Asks, AgentSession.autoResolvePendingForMode, JsMap.get_filter,
        Option.filter_eq_some_iff]
      exact ⟨hasks, rfl⟩

end Attended

/-- In a run whose questions find their request ids unused and their sessions in the executors'
maps, every question can be answered in every state. -/
theorem questions_answerable_of_disciplined (host : Host) (events : List DeskEvent)
    (hevents : Disciplined (step host) (fun desk event ↦ desk.keepsAnswerable event = true) {}
      events) (before : List DeskEvent) (hbefore : before <+: events) :
    EveryQuestionAnswerable (run (step host) {} before) := by
  have hstep (desk : QuestionDesk) (event : DeskEvent) (h : Attended desk)
      (hallowed : desk.keepsAnswerable event = true) : Attended (desk.step host event) := by
    cases event with
    | register ref mode roots =>
      simp only [keepsAnswerable, Bool.and_eq_true] at hallowed
      apply h.register hallowed.1
      rintro id rfl
      simpa using hallowed.2
    | ask number => exact h.ask number hallowed
    | answer ref requestId => exact h.answer ref requestId
    | canUseTool number toolName input => exact h.canUseTool host number toolName input
    | resolvePermission number requestId => exact h.resolvePermission number requestId
    | updatePermissionMode number mode => exact h.updatePermissionMode host number mode
    | abort number => exact h.abort number
    | cancelChat id => exact h.cancelChat id
    | finish number outcome => exact h.finish number outcome hallowed
    | restart => exact h.restart
    | deleteEntity ref => exact h.deleteEntity ref
    | writeStatus id status =>
      change Attended (if status = .waitingForInput then desk else desk.writeStatus id status)
      split
      · exact h
      · rename_i hstatus
        exact h.writeStatus id fun hwaiting ↦ absurd hwaiting hstatus
  obtain ⟨after, rfl⟩ := hbefore
  exact (run_invariant_before hstep Attended.initial before after hevents).everyQuestionAnswerable

/-- Task 5 runs and asks, and its question can be answered. -/
theorem questions_answerable_of_first_question :
    EveryQuestionAnswerable (run (step ⟨⟨[], by simp⟩, ⟨[], by simp⟩⟩) {}
      [.writeStatus 5 .running, .register (.task 5) .auto [], .ask 0]) :=
  questions_answerable_of_disciplined ⟨⟨[], by simp⟩, ⟨[], by simp⟩⟩
    [.writeStatus 5 .running, .register (.task 5) .auto [], .ask 0] (by decide +kernel) _
    (List.prefix_refl _)

/-- Two sessions of one agent, each of which asks a question; the first question is answered. -/
def askedTwice (ref : AgentRef) : List DeskEvent :=
  [.writeStatus 5 .running, .register ref .auto [], .ask 0, .answer ref ⟨.question, ref, 1⟩,
    .finish 0 .failed, .writeStatus 5 .queued, .writeStatus 5 .running, .register ref .auto [],
    .ask 1]

/-- A session asks, is answered and ends; the first question of the next session of the same task
or chat has the same request id, gets no row, and cannot be answered. -/
theorem second_session_unanswerable :
    ¬EveryQuestionAnswerable (run (step ⟨⟨[], by simp⟩, ⟨[], by simp⟩⟩) {}
      (askedTwice (.task 5))) ∧
    ¬EveryQuestionAnswerable (run (step ⟨⟨[], by simp⟩, ⟨[], by simp⟩⟩) {}
      (askedTwice (.chat 7))) := by
  constructor
  · intro hall
    exact absurd (hall.succeeds 1 _ ⟨.question, .task 5, 1⟩ rfl (by decide +kernel) rfl)
      (by decide +kernel)
  · intro hall
    exact absurd (hall.succeeds 1 _ ⟨.question, .chat 7, 1⟩ rfl (by decide +kernel) rfl)
      (by decide +kernel)

end QuestionDesk

end Flockctl.Sessions
