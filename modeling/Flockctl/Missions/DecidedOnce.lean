import Flockctl.Missions.Proposals
import Flockctl.Transition.Run

/-!
# Proposals are decided once

Both handlers look for a decision of their own kind only, and before they wait. A proposal is
decided once, and every request reports that decision, exactly when no request goes on after a
decision on its proposal that would write another one or that was there when it arrived.
-/

namespace Flockctl.Missions

open Collections Transition

namespace ProposalBoard

/-- At most one decision and one entity for each proposal, none for a dismissed one, one decision
in all answers, and the decision that was there in the answers to later requests. -/
structure DecidedOnce (board : ProposalBoard) : Prop where
  one_decision : ∀ ref, (board.decisions ref).length ≤ 1
  one_entity : ∀ ref, (board.entities ref).length ≤ 1
  dismissed : ∀ ref, ∀ event ∈ board.decisions ref, event.kind = .remediationDismissed →
    board.entities ref = []
  same_report : ∀ response ∈ board.responses, ∀ other ∈ board.responses,
    response.request.ref = other.request.ref → ∀ decisionId idempotent otherId otherIdempotent,
      response.answer = .decided decisionId idempotent →
      other.answer = .decided otherId otherIdempotent → decisionId = otherId
  later_report : ∀ response ∈ board.responses, ∀ decisionId,
    response.request.arrivedAfter = some decisionId → response.answer = .decided decisionId true

/-- The request records a decision when it goes on. -/
def writes (request : ProposalRequest) (row : ProposalRow) (met : Circumstances) : Bool :=
  match request.kind with
  | .remediationApproved => row.reparsed.isSome && met.projectPath
  | .remediationDismissed => met.body.isSome

/-- A request goes on while its proposal is undecided, or writes nothing and arrived before the
decision. -/
def decidesOnce (board : ProposalBoard) : ProposalEvent → Bool
  | .proceed number met =>
    match board.requests.get number with
    | none => true
    | some request =>
      match board.proposals.get request.ref with
      | none => true
      | some row => (board.decisions request.ref).isEmpty ||
          (request.arrivedAfter.isNone && !writes request row met)
  | .propose _ _ | .arrive _ _ _ | .restart => true

/-- The ids and kinds of the decisions on a proposal. -/
def outline (board : ProposalBoard) (ref : ProposalRef) : List (ℕ × DecisionKind) :=
  (board.decisions ref).map fun event ↦ (event.id, event.kind)

/-- A proposal has at most one decision, every entity was approved, every reported decision is
recorded, and a request that came after a decision waits only while there is one. -/
structure Orderly (board : ProposalBoard) : Prop where
  known : ∀ ref, board.outline ref ≠ [] → board.proposals.has ref = true
  one_decision : ∀ ref, (board.outline ref).length ≤ 1
  entities : ∀ ref, (board.entities ref).length ≤
    (board.outline ref).countP (·.2 = .remediationApproved)
  reported : ∀ response ∈ board.responses, ∀ decisionId idempotent,
    response.answer = .decided decisionId idempotent →
    ∃ kind, (decisionId, kind) ∈ board.outline response.request.ref
  later_report : ∀ response ∈ board.responses, ∀ decisionId,
    response.request.arrivedAfter = some decisionId → response.answer = .decided decisionId true
  waiting : ∀ number request, board.requests.get number = some request →
    request.arrivedAfter.isSome = true → board.outline request.ref ≠ []

section

variable {board : ProposalBoard}

theorem eq_singleton_of_mem {Record : Type} {records : List Record} (hlength : records.length ≤ 1)
    {record : Record} (hrecord : record ∈ records) : records = [record] := by
  match records with
  | [] => cases hrecord
  | [first] => rw [List.mem_singleton.mp hrecord]
  | first :: second :: rest => simp at hlength

theorem Orderly.decidedOnce (h : Orderly board) : DecidedOnce board where
  one_decision ref := by simpa [outline] using h.one_decision ref
  one_entity ref := by
    calc (board.entities ref).length
        ≤ (board.outline ref).countP (·.2 = .remediationApproved) := h.entities ref
      _ ≤ (board.outline ref).length := List.countP_le_length
      _ ≤ 1 := h.one_decision ref
  dismissed ref event hevent hkind := by
    have hmem : (event.id, event.kind) ∈ board.outline ref := List.mem_map_of_mem hevent
    have hnone := h.entities ref
    rw [eq_singleton_of_mem (h.one_decision ref) hmem, List.countP_singleton, hkind] at hnone
    exact List.length_eq_zero_iff.mp (Nat.le_zero.mp hnone)
  same_report response hresponse other hother href decisionId idempotent otherId otherIdempotent
      hanswer hotherAnswer := by
    obtain ⟨kind, hkind⟩ := h.reported response hresponse decisionId idempotent hanswer
    obtain ⟨otherKind, hotherKind⟩ := h.reported other hother otherId otherIdempotent hotherAnswer
    rw [← href, eq_singleton_of_mem (h.one_decision _) hkind, List.mem_singleton] at hotherKind
    exact (Prod.mk.inj hotherKind).1.symm
  later_report := h.later_report

/-! ## What the parts of the handlers change -/

theorem outline_writeDecisionEvent (ref : ProposalRef) (kind : DecisionKind)
    (payload : DecisionPayload) (depth : ℕ) (other : ProposalRef) :
    (board.writeDecisionEvent ref kind payload depth).outline other =
      if other = ref then board.outline other ++ [(board.nextDecision, kind)]
      else board.outline other := by
  rw [outline, decisions, writeDecisionEvent, List.filter_append, List.filter_singleton,
    List.map_append]
  by_cases hsame : ref = other
  · rw [if_pos hsame.symm, decide_eq_true hsame]
    rfl
  · rw [if_neg fun hother ↦ hsame hother.symm, decide_eq_false hsame]
    exact List.append_nil _

theorem outline_finalise (decisionId : ℕ) (payload : DecisionPayload) (ref : ProposalRef) :
    (board.finalise decisionId payload).outline ref = board.outline ref := by
  have hkept (event : DecisionEvent) :
      (if event.id = decisionId then { event with payload := payload } else event).ref =
          event.ref ∧
        ((if event.id = decisionId then { event with payload := payload } else event).id,
          (if event.id = decisionId then { event with payload := payload } else event).kind) =
            (event.id, event.kind) := by
    split <;> exact ⟨rfl, rfl⟩
  rw [outline, decisions, finalise, List.filter_map, List.map_map, outline, decisions]
  congr 1
  · funext event
    exact (hkept event).2
  · congr 1
    funext event
    rw [Function.comp_apply, (hkept event).1]

/-- What a request that records its decision changes. -/
theorem proceed_of_writes {number : ℕ} {request : ProposalRequest} {row : ProposalRow}
    {met : Circumstances} (hrequest : board.requests.get number = some request)
    (hrow : board.proposals.get request.ref = some row)
    (hwrites : writes request row met = true) :
    ∃ answer, (board.proceed number met).responses = ⟨request, answer⟩ :: board.responses ∧
      (∀ decisionId idempotent, answer = .decided decisionId idempotent →
        decisionId = board.nextDecision) ∧
      (∀ ref, (board.proceed number met).outline ref =
        if ref = request.ref then board.outline ref ++ [(board.nextDecision, request.kind)]
        else board.outline ref) ∧
      (∀ ref, ((board.proceed number met).entities ref).length ≤
        (board.entities ref).length +
          if ref = request.ref ∧ request.kind = .remediationApproved then 1 else 0) ∧
      (board.proceed number met).requests = board.requests.delete number ∧
      (board.proceed number met).proposals = board.proposals := by
  unfold proceed
  rw [hrequest]
  dsimp only
  rw [hrow]
  cases hkind : request.kind with
  | remediationApproved =>
    simp only [writes, hkind, Bool.and_eq_true] at hwrites
    obtain ⟨targetType, htarget⟩ := Option.isSome_iff_exists.mp hwrites.1
    simp only [approve, htarget, hwrites.2, if_true]
    cases met.created with
    | none =>
      refine ⟨.failed, rfl, ?_, ?_, ?_, rfl, rfl⟩
      · intro decisionId idempotent hanswer
        cases hanswer
      · exact outline_writeDecisionEvent _ _ _ _
      · exact fun ref ↦ Nat.le_add_right _ _
    | some entity =>
      refine ⟨.decided board.nextDecision false, rfl, ?_, ?_, ?_, rfl, rfl⟩
      · intro decisionId idempotent hanswer
        cases hanswer
        rfl
      · intro ref
        change (finalise _ _ _).outline ref = _
        rw [outline_finalise]
        exact outline_writeDecisionEvent _ _ _ _ ref
      · intro ref
        change (((request.ref, entity) :: board.created).filter (·.1 = ref)).length ≤ _
        rw [List.filter_cons]
        by_cases hsame : request.ref = ref
        · rw [if_pos (decide_eq_true hsame), if_pos ⟨hsame.symm, trivial⟩]
          exact Nat.le_refl _
        · rw [if_neg (by simpa using hsame)]
          exact Nat.le_add_right _ _
  | remediationDismissed =>
    simp only [writes, hkind] at hwrites
    obtain ⟨reason, hreason⟩ := Option.isSome_iff_exists.mp hwrites
    simp only [dismiss, hreason]
    refine ⟨.decided board.nextDecision false, rfl, ?_, ?_, ?_, rfl, rfl⟩
    · intro decisionId idempotent hanswer
      cases hanswer
      rfl
    · exact outline_writeDecisionEvent _ _ _ _
    · exact fun ref ↦ Nat.le_add_right _ _

/-- A request that records no decision is refused. -/
theorem proceed_of_not_writes {number : ℕ} {request : ProposalRequest} {row : ProposalRow}
    {met : Circumstances} (hrequest : board.requests.get number = some request)
    (hrow : board.proposals.get request.ref = some row)
    (hwrites : writes request row met = false) :
    board.proceed number met =
      { board with requests := board.requests.delete number }.respond request .invalid := by
  unfold proceed
  rw [hrequest]
  dsimp only
  rw [hrow]
  cases hkind : request.kind with
  | remediationApproved =>
    simp only [writes, hkind, Bool.and_eq_false_iff] at hwrites
    cases htarget : row.reparsed with
    | none => simp only [approve, htarget]
    | some targetType =>
      rw [htarget] at hwrites
      have hpath : met.projectPath = false := by simpa using hwrites
      simp [approve, htarget, hpath]
  | remediationDismissed =>
    simp only [writes, hkind] at hwrites
    have hbody : met.body = none := by simpa using hwrites
    simp only [dismiss, hbody]

theorem mem_outline_of_findExisting {ref : ProposalRef} {kind : DecisionKind} {decisionId : ℕ}
    (hfound : board.findExistingDecisionId ref kind = some decisionId) :
    (decisionId, kind) ∈ board.outline ref := by
  obtain ⟨event, hevent, rfl⟩ := Option.map_eq_some_iff.mp hfound
  have hkind : event.kind = kind := by simpa using List.find?_some hevent
  rw [← hkind]
  exact List.mem_map_of_mem (List.mem_of_find?_eq_some hevent)

theorem mem_outline_of_head {ref : ProposalRef} {decisionId : ℕ}
    (hhead : (board.decisions ref).head?.map DecisionEvent.id = some decisionId) :
    ∃ kind, (decisionId, kind) ∈ board.outline ref := by
  obtain ⟨event, hevent, rfl⟩ := Option.map_eq_some_iff.mp hhead
  exact ⟨event.kind, List.mem_map_of_mem (List.mem_of_head? hevent)⟩

/-! ## What one event preserves -/

namespace Orderly

theorem initial (proposals : JsMap ProposalRef ProposalRow) :
    Orderly { proposals := proposals } where
  known ref houtline := absurd rfl houtline
  one_decision _ := Nat.zero_le 1
  entities _ := Nat.le_refl 0
  reported response hresponse := by cases hresponse
  later_report response hresponse := by cases hresponse
  waiting number request hrequest := by cases hrequest

theorem respond (h : Orderly board) (request : ProposalRequest) (answer : Answer)
    (hreported : ∀ decisionId idempotent, answer = .decided decisionId idempotent →
      ∃ kind, (decisionId, kind) ∈ board.outline request.ref)
    (hlater : ∀ decisionId, request.arrivedAfter = some decisionId →
      answer = .decided decisionId true) :
    Orderly (board.respond request answer) where
  known := h.known
  one_decision := h.one_decision
  entities := h.entities
  reported response hresponse decisionId idempotent hanswer := by
    rcases List.mem_cons.mp hresponse with rfl | hbefore
    · exact hreported decisionId idempotent hanswer
    · exact h.reported response hbefore decisionId idempotent hanswer
  later_report response hresponse decisionId harrived := by
    rcases List.mem_cons.mp hresponse with rfl | hbefore
    · exact hlater decisionId harrived
    · exact h.later_report response hbefore decisionId harrived
  waiting := h.waiting

/-- Requests may go away. -/
theorem withRequests (h : Orderly board) (requests : JsMap ℕ ProposalRequest)
    (hrequests : ∀ number request, requests.get number = some request →
      request.arrivedAfter.isSome = true → board.outline request.ref ≠ []) :
    Orderly { board with requests := requests } :=
  ⟨h.known, h.one_decision, h.entities, h.reported, h.later_report, hrequests⟩

theorem take (h : Orderly board) (number : ℕ) :
    Orderly { board with requests := board.requests.delete number } := by
  apply h.withRequests
  intro other request hrequest
  exact h.waiting other request (JsMap.get_delete_eq_some_iff.mp hrequest).2

theorem propose (h : Orderly board) (ref : ProposalRef) (row : ProposalRow) :
    Orderly (board.step (.propose ref row)) := by
  rw [step]
  split
  · exact h
  · refine ⟨?_, h.one_decision, h.entities, h.reported, h.later_report, h.waiting⟩
    intro other houtline
    have hknown := h.known other houtline
    rw [JsMap.has_eq_true_iff] at hknown ⊢
    rw [JsMap.get_set]
    split
    · exact ⟨row, rfl⟩
    · exact hknown

theorem arrive (h : Orderly board) (number : ℕ) (kind : DecisionKind) (ref : ProposalRef) :
    Orderly (board.arrive number kind ref) := by
  unfold ProposalBoard.arrive
  dsimp only
  split
  · cases hfound : board.findExistingDecisionId ref kind with
    | some existing =>
      have hexisting := mem_outline_of_findExisting hfound
      apply h.respond
      · intro decisionId idempotent hanswer
        cases hanswer
        exact ⟨kind, hexisting⟩
      · intro decisionId harrived
        obtain ⟨earlier, hearlier⟩ := mem_outline_of_head harrived
        rw [eq_singleton_of_mem (h.one_decision ref) hexisting, List.mem_singleton] at hearlier
        rw [(Prod.mk.inj hearlier).1]
    | none =>
      apply h.withRequests
      intro other request hrequest
      rw [JsMap.get_set] at hrequest
      split at hrequest
      · cases hrequest
        intro harrived
        obtain ⟨decisionId, hdecision⟩ := Option.isSome_iff_exists.mp harrived
        obtain ⟨earlier, hearlier⟩ := mem_outline_of_head hdecision
        exact List.ne_nil_of_mem hearlier
      · exact h.waiting other request hrequest
  · rename_i hunknown
    apply h.respond
    · intro decisionId idempotent hanswer
      cases hanswer
    · intro decisionId harrived
      obtain ⟨earlier, hearlier⟩ := mem_outline_of_head harrived
      exact absurd (h.known ref (List.ne_nil_of_mem hearlier)) hunknown

/-- A request that goes on while its proposal is undecided decides it. -/
theorem settle (h : Orderly board) {number : ℕ} {request : ProposalRequest} {row : ProposalRow}
    {met : Circumstances} (hrequest : board.requests.get number = some request)
    (hrow : board.proposals.get request.ref = some row)
    (hundecided : board.outline request.ref = []) (hwrites : writes request row met = true) :
    Orderly (board.proceed number met) := by
  obtain ⟨answer, hresponses, hanswer, houtline, hentities, hrequests, hproposals⟩ :=
    proceed_of_writes hrequest hrow hwrites
  have hself : (board.proceed number met).outline request.ref =
      [(board.nextDecision, request.kind)] := by
    rw [houtline, if_pos rfl, hundecided]
    rfl
  have hother {ref : ProposalRef} (hne : ref ≠ request.ref) :
      (board.proceed number met).outline ref = board.outline ref := by
    rw [houtline, if_neg hne]
  have hkept {ref : ProposalRef} {decision : ℕ × DecisionKind}
      (hdecision : decision ∈ board.outline ref) :
      decision ∈ (board.proceed number met).outline ref := by
    rw [houtline]
    split
    · exact List.mem_append_left _ hdecision
    · exact hdecision
  refine ⟨?_, ?_, ?_, ?_, ?_, ?_⟩
  · intro ref hdecided
    rw [hproposals]
    by_cases hsame : ref = request.ref
    · exact (JsMap.has_eq_true_iff _ _).mpr ⟨row, hsame ▸ hrow⟩
    · exact h.known ref (hother hsame ▸ hdecided)
  · intro ref
    by_cases hsame : ref = request.ref
    · rw [hsame, hself]
      exact Nat.le_refl 1
    · rw [hother hsame]
      exact h.one_decision ref
  · intro ref
    have hbefore := h.entities ref
    apply Nat.le_trans (hentities ref)
    by_cases hsame : ref = request.ref
    · rw [hsame, hundecided, List.countP_nil] at hbefore
      rw [hsame, hself, List.countP_singleton, Nat.le_zero.mp hbefore]
      simp
    · rw [if_neg fun hboth ↦ hsame hboth.1, hother hsame]
      exact hbefore
  · intro response hresponse decisionId idempotent hdecided
    rw [hresponses] at hresponse
    rcases List.mem_cons.mp hresponse with rfl | hbefore
    · rw [hanswer decisionId idempotent hdecided]
      exact ⟨request.kind, hself ▸ List.mem_singleton_self _⟩
    · obtain ⟨kind, hkind⟩ := h.reported response hbefore decisionId idempotent hdecided
      exact ⟨kind, hkept hkind⟩
  · intro response hresponse decisionId harrived
    rw [hresponses] at hresponse
    rcases List.mem_cons.mp hresponse with rfl | hbefore
    · have hsome : request.arrivedAfter.isSome = true :=
        Option.isSome_iff_exists.mpr ⟨decisionId, harrived⟩
      exact absurd hundecided (h.waiting number request hrequest hsome)
    · exact h.later_report response hbefore decisionId harrived
  · intro other waiting hwaiting harrived
    rw [hrequests, JsMap.get_delete] at hwaiting
    split at hwaiting
    · cases hwaiting
    · obtain ⟨decision, hdecision⟩ :=
        List.exists_mem_of_ne_nil _ (h.waiting other waiting hwaiting harrived)
      exact List.ne_nil_of_mem (hkept hdecision)

theorem proceed (h : Orderly board) (number : ℕ) (met : Circumstances)
    (hallowed : board.decidesOnce (.proceed number met) = true) :
    Orderly (board.proceed number met) := by
  cases hrequest : board.requests.get number with
  | none =>
    rw [ProposalBoard.proceed, hrequest]
    exact h
  | some request =>
    cases hrow : board.proposals.get request.ref with
    | none =>
      rw [ProposalBoard.proceed, hrequest]
      dsimp only
      rw [hrow]
      exact h.take number
    | some row =>
      simp only [decidesOnce, hrequest, hrow, Bool.or_eq_true, List.isEmpty_iff,
        Bool.and_eq_true, Option.isNone_iff_eq_none] at hallowed
      cases hwrites : writes request row met with
      | true =>
        rcases hallowed with hundecided | ⟨-, hnot⟩
        · apply h.settle hrequest hrow ?_ hwrites
          rw [outline, hundecided, List.map_nil]
        · rw [hwrites] at hnot
          cases hnot
      | false =>
        rw [proceed_of_not_writes hrequest hrow hwrites]
        apply (h.take number).respond
        · intro decisionId idempotent hanswer
          cases hanswer
        · intro decisionId harrived
          have hsome : request.arrivedAfter.isSome = true :=
            Option.isSome_iff_exists.mpr ⟨decisionId, harrived⟩
          rcases hallowed with hundecided | ⟨hearly, -⟩
          · apply absurd _ (h.waiting number request hrequest hsome)
            rw [outline, hundecided, List.map_nil]
          · rw [hearly] at harrived
            cases harrived

/-- A request that goes on after a decision otherwise decides twice, or is told of none. -/
theorem decidesOnce_of_good (event : ProposalEvent)
    (hgood : DecidedOnce (board.step event)) : board.decidesOnce event = true := by
  cases event with
  | propose ref row => rfl
  | arrive number kind ref => rfl
  | restart => rfl
  | proceed number met =>
    cases hrequest : board.requests.get number with
    | none => rw [decidesOnce, hrequest]
    | some request =>
      cases hrow : board.proposals.get request.ref with
      | none =>
        rw [decidesOnce, hrequest]
        dsimp only
        rw [hrow]
      | some row =>
        simp only [decidesOnce, hrequest, hrow, Bool.or_eq_true, List.isEmpty_iff,
          Bool.and_eq_true, Option.isNone_iff_eq_none]
        cases hwrites : writes request row met with
        | true =>
          obtain ⟨answer, -, -, houtline, -⟩ := proceed_of_writes hrequest hrow hwrites
          have hone := hgood.one_decision request.ref
          have htwo := congrArg List.length (houtline request.ref)
          rw [if_pos rfl, List.length_append, List.length_singleton, outline, outline,
            List.length_map, List.length_map] at htwo
          left
          apply List.eq_nil_iff_length_eq_zero.mpr
          change ((board.proceed number met).decisions request.ref).length ≤ 1 at hone
          omega
        | false =>
          right
          refine ⟨?_, rfl⟩
          apply Option.eq_none_iff_forall_ne_some.mpr
          intro decisionId harrived
          have hreport := hgood.later_report ⟨request, .invalid⟩ (by
            change _ ∈ (board.proceed number met).responses
            rw [proceed_of_not_writes hrequest hrow hwrites]
            exact List.mem_cons_self) decisionId harrived
          cases hreport

end Orderly

end

/-- Every state of a run of the requests for any proposals is decided once exactly when no request
goes on after a decision on its proposal, except one that arrived before it and writes nothing. -/
theorem decided_once_iff (proposals : JsMap ProposalRef ProposalRow)
    (events : List ProposalEvent) :
    (∀ before, before <+: events →
      DecidedOnce (run step { proposals := proposals } before)) ↔
      Disciplined step (fun board event ↦ board.decidesOnce event = true)
        { proposals := proposals } events := by
  have hstep (board : ProposalBoard) (event : ProposalEvent) (h : Orderly board)
      (hallowed : board.decidesOnce event = true) : Orderly (board.step event) := by
    cases event with
    | propose ref row => exact h.propose ref row
    | arrive number kind ref => exact h.arrive number kind ref
    | proceed number met => exact h.proceed number met hallowed
    | restart =>
      apply h.withRequests
      intro number request hrequest
      cases hrequest
  exact disciplined_iff_good hstep (fun board h ↦ h.decidedOnce)
    (fun board event _ hgood ↦ Orderly.decidesOnce_of_good event hgood)
    (Orderly.initial proposals) events

/-- A double click on approve creates two slices, and an approval of a dismissed proposal creates
one all the same. -/
theorem proposals_decided_twice :
    (∃ board, board = run step
        { proposals := JsMap.empty.set ⟨"m1", "p1"⟩ ⟨some .slice, 1⟩ }
        [.arrive 1 .remediationApproved ⟨"m1", "p1"⟩, .arrive 2 .remediationApproved ⟨"m1", "p1"⟩,
          .proceed 1 ⟨none, true, some { entityKind := .slice, targetId := "00-fix" }⟩,
          .proceed 2 ⟨none, true, some { entityKind := .slice, targetId := "00-fix-2" }⟩] ∧
      (board.entities ⟨"m1", "p1"⟩).length = 2 ∧ ¬DecidedOnce board) ∧
    (∃ board, board = run step
        { proposals := JsMap.empty.set ⟨"m1", "p1"⟩ ⟨some .slice, 1⟩ }
        [.arrive 1 .remediationDismissed ⟨"m1", "p1"⟩, .proceed 1 ⟨some none, true, none⟩,
          .arrive 2 .remediationApproved ⟨"m1", "p1"⟩,
          .proceed 2 ⟨none, true, some { entityKind := .slice, targetId := "00-fix" }⟩] ∧
      (board.entities ⟨"m1", "p1"⟩).length = 1 ∧ ¬DecidedOnce board) := by
  refine ⟨⟨_, rfl, by decide +kernel, ?_⟩, ⟨_, rfl, by decide +kernel, ?_⟩⟩
  · intro hdecided
    exact absurd (hdecided.one_entity ⟨"m1", "p1"⟩) (by decide +kernel)
  · intro hdecided
    exact absurd (hdecided.one_decision ⟨"m1", "p1"⟩) (by decide +kernel)

end ProposalBoard

end Flockctl.Missions
