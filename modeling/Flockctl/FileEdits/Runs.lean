import Flockctl.FileEdits.Journal

/-!
# The journals follow their calls

Every event leaves the calls inside `_run` as they were, apart from the one it takes to its next
`await`; the journals stay in the order of the calls, so a call keeps its journal until its session
ends.
-/

namespace Flockctl.FileEdits

open Collections Encoding Ai Tasks TaskExecutor

/-! ## The calls an event leaves -/

namespace Calls

/-- The call `_run` leaves at its first `await`: it builds the context, or it is over. -/
def started (d : Daemon) (id : TaskId) (key : AiKey) : Call :=
  match d.tasks.get id with
  | none => ⟨id, .finishing key⟩
  | some row =>
      if d.overBudget.contains row.keys.projectId then ⟨id, .finishing key⟩
      else ⟨id, .building key row.requiresApproval⟩

/-- The call `_run` leaves once the context is built or not. -/
def built (d : Daemon) (id : TaskId) (key : AiKey) (requiresApproval : Option Bool) :
    Option Daemon.RunContext → Call
  | none => ⟨id, .finishing key⟩
  | some context =>
      ⟨id, .live key d.nextSession
        (requiresApproval.getD (context.projectRequiresApproval.getD false))⟩

/-- The calls of which the journals are carried over. -/
def carried (d : Daemon) : TaskExecutor.Event → List Call
  | .resume i =>
      match d.executor.calls[i]? with
      | none | some ⟨_, .building _ _⟩ | some ⟨_, .live _ _ _⟩ => d.executor.calls
      | some ⟨id, .reserved (.granted key)⟩ => d.executor.calls.eraseIdx i ++ [started d id key]
      | some _ => d.executor.calls.eraseIdx i
  | .contextBuilt i outcome =>
      match d.executor.calls[i]? with
      | some ⟨id, .building key requiresApproval⟩ =>
          d.executor.calls.eraseIdx i ++ [built d id key requiresApproval outcome]
      | _ => d.executor.calls
  | .sessionEnded i _ =>
      match d.executor.calls[i]? with
      | some ⟨_, .live _ _ _⟩ => d.executor.calls.eraseIdx i
      | _ => d.executor.calls
  | .boot _ _ => []
  | _ => d.executor.calls

/-- Calls that are not inside `_run`. -/
def Outside (fresh : List Call) : Prop := ∀ call ∈ fresh, call.phase.inRun = false

theorem outside_nil : Outside [] := by
  intro call hcall
  cases hcall

theorem outside_singleton {call : Call} (h : call.phase.inRun = false) : Outside [call] := by
  intro other hother
  rw [List.mem_singleton.mp hother]
  exact h

theorem outside_of_submitted {fresh : List Call} (h : Submitted fresh) : Outside fresh := by
  intro call hcall
  have hselecting := h call hcall
  cases hphase : call.phase <;> rw [hphase] at hselecting <;> first | rfl | cases hselecting

/-- What an event adds to the calls behind those it carries over. -/
def Adds (calls : List Call) (d' : Daemon) : Prop :=
  ∃ fresh, Outside fresh ∧ d'.executor.calls = calls ++ fresh

theorem adds_of_eq {calls : List Call} {d' : Daemon} (h : d'.executor.calls = calls) :
    Adds calls d' :=
  ⟨[], outside_nil, by rw [h, List.append_nil]⟩

theorem adds_one {calls : List Call} {d' : Daemon} {call : Call}
    (h : d'.executor.calls = calls ++ [call]) (hcall : call.phase.inRun = false) :
    Adds calls d' :=
  ⟨[call], outside_singleton hcall, h⟩

theorem adds_of_submits {d d' : Daemon} (h : Daemon.Submits d d') :
    Adds d.executor.calls d' := by
  obtain ⟨fresh, hfresh, heq⟩ := h
  exact ⟨fresh, outside_of_submitted hfresh, by rw [heq]⟩

theorem adds_resume (d : Daemon) (i : ℕ) : Adds (carried d (.resume i)) (d.resume i) := by
  unfold carried Daemon.resume
  dsimp only
  rcases hcall : d.executor.calls[i]? with _ | ⟨id, phase⟩
  · exact adds_of_eq rfl
  cases phase with
  | selecting task saturatedKeyIds selected =>
    cases selected with
    | error message =>
      exact adds_one rfl rfl
    | ok key =>
      simp only [Daemon.continueReserve]
      split
      · exact adds_one rfl rfl
      · exact adds_one rfl rfl
  | reserved reservation =>
    cases reservation with
    | granted key =>
      refine adds_of_eq ?_
      simp only [Daemon.continueExecute, Daemon.startRun, started]
      cases d.tasks.get id with
      | none => rfl
      | some row =>
        dsimp only
        split <;> rfl
    | enqueue => exact adds_of_eq rfl
    | failed message => exact adds_of_eq rfl
  | building key requiresApproval => exact adds_of_eq rfl
  | live key session requiresApproval => exact adds_of_eq rfl
  | finishing key =>
    exact ⟨_, outside_of_submitted (Daemon.submitted_flatMap _ d.executor.queue), rfl⟩

theorem adds_contextBuilt (d : Daemon) (i : ℕ) (outcome : Option Daemon.RunContext) :
    Adds (carried d (.contextBuilt i outcome)) (d.contextBuilt i outcome) := by
  unfold carried Daemon.contextBuilt
  dsimp only
  rcases hcall : d.executor.calls[i]? with _ | ⟨id, phase⟩
  · exact adds_of_eq rfl
  cases phase with
  | building key requiresApproval => cases outcome <;> exact adds_of_eq rfl
  | selecting task saturatedKeyIds selected => exact adds_of_eq rfl
  | reserved reservation => exact adds_of_eq rfl
  | live key session requiresApproval => exact adds_of_eq rfl
  | finishing key => exact adds_of_eq rfl

theorem adds_sessionEnded (d : Daemon) (i : ℕ) (outcome : Daemon.SessionOutcome) :
    Adds (carried d (.sessionEnded i outcome)) (d.sessionEnded i outcome) := by
  unfold carried Daemon.sessionEnded
  dsimp only
  rcases hcall : d.executor.calls[i]? with _ | ⟨id, phase⟩
  · exact adds_of_eq rfl
  cases phase with
  | live key session requiresApproval =>
    have hcalls : ((Daemon.settleSession { d with executor := d.executor.resumed i } id
        requiresApproval outcome).closeSession id key).executor.calls =
        d.executor.calls.eraseIdx i ++ [⟨id, .finishing key⟩] := by
      simp only [Daemon.closeSession, Daemon.executor_settleSession]
      rfl
    exact adds_one hcalls rfl
  | selecting task saturatedKeyIds selected => exact adds_of_eq rfl
  | reserved reservation => exact adds_of_eq rfl
  | building key requiresApproval => exact adds_of_eq rfl
  | finishing key => exact adds_of_eq rfl

/-- Every event carries the calls over and adds calls that are not inside `_run`. -/
theorem adds_step (d : Daemon) (event : TaskExecutor.Event) :
    Adds (carried d event) (TaskExecutor.step d event) := by
  cases event with
  | post task => exact adds_of_submits (Daemon.Submits.createTask d task)
  | execute id => exact adds_of_submits (Daemon.Submits.execute d id)
  | planTask plan => exact adds_of_submits (Daemon.Submits.executePlanTask d plan)
  | resume i => exact adds_resume d i
  | contextBuilt i outcome => exact adds_contextBuilt d i outcome
  | sessionEnded i outcome => exact adds_sessionEnded d i outcome
  | questionEmitted i =>
    refine adds_of_eq ?_
    simp only [TaskExecutor.step, Daemon.questionEmitted, carried]
    split
    · split <;> rfl
    · rfl
  | answerQuestion id pending accepted =>
    exact adds_of_submits (Daemon.Submits.answerQuestion d id pending accepted)
  | cancel id =>
    refine adds_of_eq ?_
    simp only [TaskExecutor.step, Daemon.cancelRoute, carried]
    split <;> rfl
  | approve id =>
    refine adds_of_eq ?_
    simp only [TaskExecutor.step, Daemon.approveRoute, carried]
    split <;> rfl
  | reject id =>
    refine adds_of_eq ?_
    simp only [TaskExecutor.step, Daemon.rejectRoute, carried]
    repeat' split
    all_goals rfl
  | rollbackDone i =>
    refine adds_of_eq ?_
    simp only [TaskExecutor.step, Daemon.rollbackDone, carried]
    split <;> rfl
  | timerFired id => exact adds_of_submits (Daemon.Submits.timerFired d id)
  | retryFired i => exact adds_of_submits (Daemon.Submits.retryFired d i)
  | deleteProject projectId => exact adds_of_eq rfl
  | edit ai overBudget => exact adds_of_eq rfl
  | shutdown => exact adds_of_eq rfl
  | boot orphans resumed =>
    obtain ⟨fresh, hfresh, hboot⟩ := Daemon.Submits.boot d orphans resumed
    refine ⟨fresh, outside_of_submitted hfresh, ?_⟩
    simp only [TaskExecutor.step, carried]
    rw [hboot]
    rfl

end Calls

/-! ## The journal of a call -/

theorem zip_eraseIdx {Left Right : Type} (left : List Left) (right : List Right) (i : ℕ) :
    (left.eraseIdx i).zip (right.eraseIdx i) = (left.zip right).eraseIdx i := by
  induction left generalizing right i with
  | nil => simp
  | cons first left ih =>
    cases right with
    | nil => simp
    | cons other right =>
      cases i with
      | zero => rfl
      | succ i => simp [ih]

theorem mem_eraseIdx_of_ne {Value : Type} {values : List Value} {i k : ℕ} {value : Value}
    (h : values[k]? = some value) (hne : k ≠ i) : value ∈ values.eraseIdx i := by
  rcases Nat.lt_or_gt_of_ne hne with hlt | hgt
  · apply List.mem_of_getElem? (i := k)
    rw [List.getElem?_eraseIdx, if_pos hlt, h]
  · apply List.mem_of_getElem? (i := k - 1)
    have hk : k - 1 + 1 = k := by omega
    rw [List.getElem?_eraseIdx, if_neg (by omega), hk, h]

namespace JournalDaemon

/-- The calls with their journals. -/
def runs (w : JournalDaemon) : List (Call × FileEditJournal) := w.daemon.executor.calls.zip w.journals

/-- A call has one journal. -/
def Aligned (w : JournalDaemon) : Prop := w.journals.length = w.daemon.executor.calls.length

variable {w : JournalDaemon}

theorem Aligned.runs_getElem? (h : w.Aligned) {i : ℕ} {call : Call}
    (hcall : w.daemon.executor.calls[i]? = some call) :
    w.runs[i]? = some (call, w.journalOf i) := by
  obtain ⟨hi, hget⟩ := List.getElem?_eq_some_iff.mp hcall
  have hjournal : w.journals[i]? = some (w.journalOf i) := by
    rw [journalOf, List.getD_eq_getElem?_getD, List.getElem?_eq_getElem (h ▸ hi), Option.getD_some]
  rw [runs, List.getElem?_zip_eq_some]
  exact ⟨hcall, hjournal⟩

theorem Aligned.mem_runs (h : w.Aligned) {i : ℕ} {call : Call}
    (hcall : w.daemon.executor.calls[i]? = some call) : (call, w.journalOf i) ∈ w.runs :=
  List.mem_of_getElem? (h.runs_getElem? hcall)

theorem Aligned.exists_of_mem (h : w.Aligned) {call : Call} {journal : FileEditJournal}
    (hmem : (call, journal) ∈ w.runs) :
    ∃ i, w.daemon.executor.calls[i]? = some call ∧ journal = w.journalOf i := by
  obtain ⟨i, hi⟩ := List.getElem?_of_mem hmem
  obtain ⟨hcall, -⟩ := List.getElem?_zip_eq_some.mp hi
  have hsame := (h.runs_getElem? hcall).symm.trans hi
  exact ⟨i, hcall, (Prod.mk.inj (Option.some.inj hsame)).2.symm⟩

/-- What an event does to the calls and, at the same places, to their journals. -/
inductive Carries (w : JournalDaemon) (event : TaskExecutor.Event) :
    List Call → List FileEditJournal → Prop
  | kept
      (hquiet : ∀ i outcome call, event = .sessionEnded i outcome →
        w.daemon.executor.calls[i]? = some call → call.phase.session = none)
      (hboot : ∀ orphans resumed, event ≠ .boot orphans resumed) :
      Carries w event w.daemon.executor.calls w.journals
  | left (i : ℕ) (hends : ∀ k outcome, event = .sessionEnded k outcome → k = i)
      (hidle : ∀ call session, w.daemon.executor.calls[i]? = some call →
        call.phase.session = some session → ∃ outcome, event = .sessionEnded i outcome)
      (hboot : ∀ orphans resumed, event ≠ .boot orphans resumed) :
      Carries w event (w.daemon.executor.calls.eraseIdx i) (w.journals.eraseIdx i)
  | started (i : ℕ) (id : TaskId) (key : AiKey) (hevent : event = .resume i)
      (hcall : w.daemon.executor.calls[i]? = some ⟨id, .reserved (.granted key)⟩) :
      Carries w event (w.daemon.executor.calls.eraseIdx i ++ [Calls.started w.daemon id key])
        (w.journals.eraseIdx i ++ [parseJournal (w.fileEdits id)])
  | built (i : ℕ) (id : TaskId) (key : AiKey) (requiresApproval : Option Bool)
      (outcome : Option Daemon.RunContext) (hevent : event = .contextBuilt i outcome)
      (hcall : w.daemon.executor.calls[i]? = some ⟨id, .building key requiresApproval⟩) :
      Carries w event
        (w.daemon.executor.calls.eraseIdx i ++
          [Calls.built w.daemon id key requiresApproval outcome])
        (w.journals.eraseIdx i ++ [w.journalOf i])
  | rebooted (orphans : List TaskId) (resumed : List Daemon.PlanExecution)
      (hevent : event = .boot orphans resumed) : Carries w event [] []

/-- An event that ends no session leaves the calls as they are, or a call without a session leaves
them. -/
theorem carries_of_quiet (event : TaskExecutor.Event)
    (hevent : ∀ i outcome, event ≠ .sessionEnded i outcome)
    (hboot : ∀ orphans resumed, event ≠ .boot orphans resumed) :
    w.Carries event w.daemon.executor.calls w.journals ∧
      ∀ i, (∀ call, w.daemon.executor.calls[i]? = some call → call.phase.session = none) →
        w.Carries event (w.daemon.executor.calls.eraseIdx i) (w.journals.eraseIdx i) := by
  refine ⟨.kept (fun i outcome _ h ↦ absurd h (hevent i outcome)) hboot, fun i hidle ↦ ?_⟩
  refine .left i (fun k outcome h ↦ absurd h (hevent k outcome)) ?_ hboot
  intro call session hcall hsession
  cases (hidle call hcall).symm.trans hsession

variable (w) in
theorem carries (event : TaskExecutor.Event) :
    w.Carries event (Calls.carried w.daemon event) (w.carried event) := by
  unfold Calls.carried JournalDaemon.carried
  cases event with
  | resume i =>
    obtain ⟨hkept, hleft⟩ := carries_of_quiet (.resume i) nofun nofun
    dsimp only
    rcases hcall : w.daemon.executor.calls[i]? with _ | ⟨id, phase⟩
    · exact hkept
    have hgone (hidle : phase.session = none) := hleft i fun call hother ↦ by
      cases hcall.symm.trans hother
      exact hidle
    cases phase with
    | reserved reservation =>
      cases reservation with
      | granted key => exact .started i id key rfl hcall
      | enqueue => exact hgone rfl
      | failed message => exact hgone rfl
    | selecting task saturatedKeyIds selected => exact hgone rfl
    | building key requiresApproval => exact hkept
    | live key session requiresApproval => exact hkept
    | finishing key => exact hgone rfl
  | contextBuilt i outcome =>
    obtain ⟨hkept, -⟩ := carries_of_quiet (.contextBuilt i outcome) nofun nofun
    dsimp only
    rcases hcall : w.daemon.executor.calls[i]? with _ | ⟨id, phase⟩
    · exact hkept
    cases phase with
    | building key requiresApproval => exact .built i id key requiresApproval outcome rfl hcall
    | _ => exact hkept
  | sessionEnded i outcome =>
    have hkept (hidle : ∀ call, w.daemon.executor.calls[i]? = some call →
        call.phase.session = none) :
        w.Carries (.sessionEnded i outcome) w.daemon.executor.calls w.journals := by
      refine .kept (fun k other call hended hcall ↦ ?_) nofun
      cases hended
      exact hidle call hcall
    dsimp only
    rcases hcall : w.daemon.executor.calls[i]? with _ | ⟨id, phase⟩
    · exact hkept fun call hother ↦ by cases hcall.symm.trans hother
    have hquiet (hidle : phase.session = none) := hkept fun call hother ↦ by
      cases hcall.symm.trans hother
      exact hidle
    cases phase with
    | live key session requiresApproval =>
      refine .left i (fun k other hended ↦ ?_) (fun _ _ _ _ ↦ ⟨outcome, rfl⟩) nofun
      cases hended
      rfl
    | _ => exact hquiet rfl
  | boot orphans resumed => exact .rebooted orphans resumed rfl
  | _ =>
    refine .kept ?_ ?_
    · rintro _ _ _ ⟨⟩
    · rintro _ _ ⟨⟩

theorem Aligned.length_eraseIdx (h : w.Aligned) (i : ℕ) :
    (w.journals.eraseIdx i).length = (w.daemon.executor.calls.eraseIdx i).length := by
  rw [List.length_eraseIdx, List.length_eraseIdx, h]

/-- The calls and the journals that are carried over fit together. -/
theorem Aligned.carried (h : w.Aligned) (event : TaskExecutor.Event) :
    (w.carried event).length = (Calls.carried w.daemon event).length := by
  have hcarries := w.carries event
  generalize Calls.carried w.daemon event = calls, w.carried event = journals at hcarries ⊢
  cases hcarries with
  | kept hquiet hboot => exact h
  | left i hends hidle hboot => exact h.length_eraseIdx i
  | started i id key hevent hcall =>
    rw [List.length_append, List.length_append, h.length_eraseIdx]
    rfl
  | built i id key requiresApproval outcome hevent hcall =>
    rw [List.length_append, List.length_append, h.length_eraseIdx]
    rfl
  | rebooted orphans resumed hevent => rfl

/-- After an event the calls inside `_run` are carried over with their journals. -/
theorem Aligned.advance (h : w.Aligned) (event : TaskExecutor.Event) :
    (w.advance event).Aligned ∧
      ∃ others, (∀ entry ∈ others, entry.1.phase.inRun = false) ∧
        (w.advance event).runs =
          (Calls.carried w.daemon event).zip (w.carried event) ++ others := by
  obtain ⟨fresh, hfresh, hcalls⟩ := Calls.adds_step w.daemon event
  have hlength := h.carried event
  have hpad : (TaskExecutor.step w.daemon event).executor.calls.length -
      (w.carried event).length = fresh.length := by
    rw [hcalls, List.length_append, hlength]
    omega
  have hjournals : (w.advance event).journals =
      w.carried event ++ List.replicate fresh.length ⟨[]⟩ := by
    rw [← hpad]
    rfl
  constructor
  · calc
      (w.advance event).journals.length
          = (Calls.carried w.daemon event).length + fresh.length := by
        rw [hjournals, List.length_append, List.length_replicate, hlength]
      _ = (w.advance event).daemon.executor.calls.length := by
        rw [← List.length_append]
        exact congrArg List.length hcalls.symm
  · refine ⟨fresh.zip (List.replicate fresh.length ⟨[]⟩), ?_, ?_⟩
    · rintro ⟨call, journal⟩ hentry
      exact hfresh call (List.of_mem_zip hentry).1
    · rw [runs, hjournals]
      have hzip : (Calls.carried w.daemon event ++ fresh).zip
          (w.carried event ++ List.replicate fresh.length ⟨[]⟩) =
          (Calls.carried w.daemon event).zip (w.carried event) ++
            fresh.zip (List.replicate fresh.length ⟨[]⟩) := List.zip_append hlength.symm
      rw [← hzip, ← hcalls]
      rfl

theorem Aligned.of_mem_eraseIdx (h : w.Aligned) {i : ℕ} {call : Call}
    {journal : FileEditJournal} (hmem : (call, journal) ∈ w.runs.eraseIdx i) :
    ∃ k, k ≠ i ∧ w.daemon.executor.calls[k]? = some call ∧ journal = w.journalOf k := by
  obtain ⟨k, hk, hget⟩ := List.mem_eraseIdx_iff_getElem?.mp hmem
  obtain ⟨hcall, -⟩ := List.getElem?_zip_eq_some.mp hget
  have hsame := (h.runs_getElem? hcall).symm.trans hget
  exact ⟨k, hk, hcall, (Prod.mk.inj (Option.some.inj hsame)).2.symm⟩

/-- Where a call that is carried over comes from: it has been there with its journal, its run starts
with the journal of the row, or its context is built. -/
theorem Aligned.origin (h : w.Aligned) {event : TaskExecutor.Event} {call : Call}
    {journal : FileEditJournal}
    (hmem : (call, journal) ∈ (Calls.carried w.daemon event).zip (w.carried event)) :
    (∃ k, w.daemon.executor.calls[k]? = some call ∧ journal = w.journalOf k ∧
        (∀ outcome, event = .sessionEnded k outcome → call.phase.session = none) ∧
        ∀ orphans resumed, event ≠ .boot orphans resumed) ∨
      (∃ i id key, event = .resume i ∧
        w.daemon.executor.calls[i]? = some ⟨id, .reserved (.granted key)⟩ ∧
        call = Calls.started w.daemon id key ∧ journal = parseJournal (w.fileEdits id)) ∨
      ∃ i id key requiresApproval outcome, event = .contextBuilt i outcome ∧
        w.daemon.executor.calls[i]? = some ⟨id, .building key requiresApproval⟩ ∧
        call = Calls.built w.daemon id key requiresApproval outcome ∧ journal = w.journalOf i := by
  have hcarries := w.carries event
  have herased {i : ℕ} (herase : (call, journal) ∈
      (w.daemon.executor.calls.eraseIdx i).zip (w.journals.eraseIdx i)) :
      ∃ k, k ≠ i ∧ w.daemon.executor.calls[k]? = some call ∧ journal = w.journalOf k := by
    rw [zip_eraseIdx] at herase
    exact h.of_mem_eraseIdx herase
  generalize Calls.carried w.daemon event = calls, w.carried event = journals at hcarries hmem
  cases hcarries with
  | kept hquiet hboot =>
    obtain ⟨k, hcall, hjournal⟩ := h.exists_of_mem hmem
    exact .inl ⟨k, hcall, hjournal, fun outcome hended ↦ hquiet k outcome call hended hcall, hboot⟩
  | left i hends hidle hboot =>
    obtain ⟨k, hk, hcall, hjournal⟩ := herased hmem
    exact .inl ⟨k, hcall, hjournal, fun outcome hended ↦ absurd (hends k outcome hended) hk, hboot⟩
  | started i id key hevent hcall =>
    subst hevent
    rw [List.zip_append (h.length_eraseIdx i).symm, List.mem_append] at hmem
    rcases hmem with hmem | hmem
    · obtain ⟨k, -, hother, hjournal⟩ := herased hmem
      exact .inl ⟨k, hother, hjournal, nofun, nofun⟩
    · rw [List.zip_cons_cons, List.zip_nil_left, List.mem_singleton, Prod.mk.injEq] at hmem
      exact .inr (.inl ⟨i, id, key, rfl, hcall, hmem.1, hmem.2⟩)
  | built i id key requiresApproval outcome hevent hcall =>
    subst hevent
    rw [List.zip_append (h.length_eraseIdx i).symm, List.mem_append] at hmem
    rcases hmem with hmem | hmem
    · obtain ⟨k, -, hother, hjournal⟩ := herased hmem
      exact .inl ⟨k, hother, hjournal, nofun, nofun⟩
    · rw [List.zip_cons_cons, List.zip_nil_left, List.mem_singleton, Prod.mk.injEq] at hmem
      exact .inr (.inr ⟨i, id, key, requiresApproval, outcome, rfl, hcall, hmem.1, hmem.2⟩)
  | rebooted orphans resumed hevent => cases hmem

/-- A live session goes on with its journal, unless the event ends it or the process. -/
theorem Aligned.live_stays (h : w.Aligned) {event : TaskExecutor.Event} {k : ℕ} {call : Call}
    {session : SessionId} (hcall : w.daemon.executor.calls[k]? = some call)
    (hlive : call.phase.session = some session)
    (hended : ∀ outcome, event ≠ .sessionEnded k outcome)
    (hboot : ∀ orphans resumed, event ≠ .boot orphans resumed) :
    (call, w.journalOf k) ∈ (Calls.carried w.daemon event).zip (w.carried event) := by
  have hcarries := w.carries event
  have herase {i : ℕ} (hne : k ≠ i) : (call, w.journalOf k) ∈
      (w.daemon.executor.calls.eraseIdx i).zip (w.journals.eraseIdx i) := by
    rw [zip_eraseIdx]
    exact mem_eraseIdx_of_ne (h.runs_getElem? hcall) hne
  have hne {i : ℕ} {other : Call} (hother : w.daemon.executor.calls[i]? = some other)
      (hidle : other.phase.session = none) : k ≠ i := by
    rintro rfl
    cases hcall.symm.trans hother
    cases hidle.symm.trans hlive
  generalize Calls.carried w.daemon event = calls, w.carried event = journals at hcarries ⊢
  cases hcarries with
  | kept hquiet hnoBoot => exact h.mem_runs hcall
  | left i hends hidle hnoBoot =>
    refine herase ?_
    rintro rfl
    obtain ⟨outcome, hevent⟩ := hidle call session hcall hlive
    exact hended outcome hevent
  | started i id key hevent hother =>
    rw [List.zip_append (h.length_eraseIdx i).symm]
    exact List.mem_append_left _ (herase (hne hother rfl))
  | built i id key requiresApproval outcome hevent hother =>
    rw [List.zip_append (h.length_eraseIdx i).symm]
    exact List.mem_append_left _ (herase (hne hother rfl))
  | rebooted orphans resumed hevent => exact absurd hevent (hboot orphans resumed)

end JournalDaemon

end Flockctl.FileEdits
