import Flockctl.TaskExecutor.Slots

/-!
# One live session per task

`execute` looks neither at the sessions map nor at the row, so nothing keeps two calls for one
task from both passing their reservation. The run of the second one then replaces the session of
the first in the map. In runs that grant a key to a task only when no granted call of that task
has its `_run` ahead or in progress, a task has one run at most, and the sessions map finds every
open session. Boot is where the callers overlap: the milestones that are resumed execute a task
that the stale reset returned, and the boot loop executes it once more.
-/

namespace Flockctl.TaskExecutor

open Collections Ai Tasks Transition

namespace Call

theorem underwayTask_of_true {call : Call} (h : call.phase.underway = true) :
    call.underwayTask = some call.taskId := by
  rw [underwayTask, if_pos h]

theorem underwayTask_of_false {call : Call} (h : call.phase.underway = false) :
    call.underwayTask = none := by
  rw [underwayTask, h]
  rfl

theorem underway_of_session {call : Call} {session : SessionId}
    (h : call.phase.session = some session) : call.phase.underway = true := by
  obtain ⟨taskId, phase⟩ := call
  cases phase <;> first | rfl | cases h

theorem not_underway_of_keyId {call : Call} (h : call.phase.keyId = none) :
    call.phase.underway = false := by
  obtain ⟨taskId, phase⟩ := call
  cases phase with
  | selecting task saturatedKeyIds selected => rfl
  | reserved reservation => cases reservation <;> first | rfl | cases h
  | building key requiresApproval => cases h
  | live key session requiresApproval => cases h
  | finishing key => cases h

theorem underway_of_inRun {call : Call} (h : call.phase.inRun = true) :
    call.phase.underway = true := by
  obtain ⟨taskId, phase⟩ := call
  cases phase <;> first | rfl | cases h

theorem session_of_not_underway {call : Call} (h : call.phase.underway = false) :
    call.phase.session = none := by
  cases hsession : call.phase.session with
  | none => rfl
  | some session =>
    rw [underway_of_session hsession] at h
    cases h

theorem not_underway_of_selecting {call : Call} (h : call.phase.isSelecting = true) :
    call.phase.underway = false := by
  obtain ⟨taskId, phase⟩ := call
  cases phase <;> first | rfl | cases h

end Call

theorem Submitted.underwayTask_eq_none {fresh : List Call} (h : Submitted fresh) :
    ∀ call ∈ fresh, call.underwayTask = none :=
  fun call hcall ↦ Call.underwayTask_of_false (Call.not_underway_of_selecting (h call hcall))

namespace Executor

/-- A call that goes on without starting a run adds no task to those underway. -/
theorem underway_next_le {e : Executor} {i : ℕ} {call next : Call}
    (hcall : e.calls[i]? = some call) (htask : next.taskId = call.taskId)
    (hunderway : next.phase.underway = true → call.phase.underway = true) :
    (↑(e.calls.eraseIdx i ++ [next]) : Multiset Call).filterMap Call.underwayTask ≤ e.underway := by
  cases hnext : next.phase.underway with
  | true =>
    apply le_of_eq
    apply held_next_of_eq hcall
    rw [Call.underwayTask_of_true hnext, Call.underwayTask_of_true (hunderway hnext), htask]
  | false =>
    rw [held_next_of_none (Call.underwayTask_of_false hnext), underway, inFlight_eq hcall]
    exact Multiset.filterMap_le_filterMap _ (Multiset.le_cons_self _ _)

end Executor

/-- A move adds a task to those underway only by a grant to it. -/
theorem Move.underway_le {e e' : Executor} {act : Act} (h : Move e act e') :
    (act.isGrant = false ∧ e'.underway ≤ e.underway) ∨
      ∃ taskId keyId, act = .grant taskId keyId ∧ e'.underway = taskId ::ₘ e.underway := by
  cases h with
  | submit fresh hfresh =>
    exact .inl ⟨rfl, (Executor.held_append_of_none _ hfresh.underwayTask_eq_none).le⟩
  | goOn i call next hcall htask _ hunderway _ _ =>
    exact .inl ⟨rfl, Executor.underway_next_le hcall htask hunderway⟩
  | grant i call next hcall key htask hselecting hnext hfree =>
    refine .inr ⟨call.taskId, key.id, rfl, ?_⟩
    have hstarts : next.underwayTask = some call.taskId := by
      rw [Call.underwayTask_of_true (by rw [hnext]; rfl), htask]
    have hidle : call.underwayTask = none :=
      Call.underwayTask_of_false (Call.not_underway_of_selecting hselecting)
    exact (Executor.held_next_of_some hstarts).trans
      (congrArg _ (Executor.held_of_none hcall hidle).symm)
  | discard i call hcall hkey _ =>
    have hidle := Call.underwayTask_of_false (Call.not_underway_of_keyId hkey)
    exact .inl ⟨rfl, (Executor.held_of_none hcall hidle).ge⟩
  | enqueue i call hcall hphase =>
    have hkey : call.phase.keyId = none := by rw [hphase]; rfl
    have hidle := Call.underwayTask_of_false (Call.not_underway_of_keyId hkey)
    exact .inl ⟨rfl, (Executor.held_of_none hcall hidle).ge⟩
  | openSession i call next hcall htask _ hunderway _ _ _ =>
    exact .inl ⟨rfl, Executor.underway_next_le hcall htask fun _ ↦ hunderway⟩
  | closeSession i call next hcall htask _ session hsession _ =>
    exact .inl ⟨rfl, Executor.underway_next_le hcall htask
      fun _ ↦ Call.underway_of_session hsession⟩
  | finish i call hcall keyId _ hunderway fresh hfresh =>
    have hidle := Call.underwayTask_of_false hunderway
    exact .inl ⟨rfl, ((Executor.held_append_of_none _ hfresh.underwayTask_eq_none).trans
      (Executor.held_of_none hcall hidle).symm).le⟩
  | dequeue queue _ => exact .inl ⟨rfl, le_refl _⟩
  | restart fresh hfresh =>
    have hnone := Executor.held_append_of_none [] hfresh.underwayTask_eq_none
    exact .inl ⟨rfl, hnone.le.trans (Multiset.zero_le _)⟩

/-- What a move does to the sessions map and to the open sessions. A session is opened for a
task underway, and a second open session of that task would be underway besides. -/
theorem Move.sessions {e e' : Executor} {act : Act} (h : Move e act e') :
    (e'.sessions = e.sessions ∧ e'.openSessions = e.openSessions) ∨
    (∃ taskId session, e'.sessions = e.sessions.set taskId session ∧
      e'.openSessions = (taskId, session) ::ₘ e.openSessions ∧
      (e.underway.Nodup → ∀ other, (taskId, other) ∉ e.openSessions)) ∨
    (∃ taskId session, e'.sessions = e.sessions.delete taskId ∧
      e.openSessions = (taskId, session) ::ₘ e'.openSessions) ∨
    (e'.sessions = JsMap.empty ∧ e'.openSessions = 0) := by
  cases h with
  | submit fresh hfresh =>
    exact .inl ⟨rfl, Executor.held_append_of_none _ hfresh.openSession_eq_none⟩
  | goOn i call next hcall _ _ _ hsession hnext =>
    refine .inl ⟨rfl, Executor.held_next_of_eq hcall ?_⟩
    rw [Call.openSession_of_none hsession, Call.openSession_of_none hnext]
  | grant i call next hcall key _ hselecting hnext _ =>
    refine .inl ⟨rfl, Executor.held_next_of_eq hcall ?_⟩
    rw [(Call.holds_nothing hselecting).2, Call.openSession_of_none (by rw [hnext]; rfl)]
  | discard i call hcall _ hsession =>
    exact .inl ⟨rfl, (Executor.held_of_none hcall (Call.openSession_of_none hsession)).symm⟩
  | enqueue i call hcall hphase =>
    have hsession : call.phase.session = none := by rw [hphase]; rfl
    exact .inl ⟨rfl, (Executor.held_of_none hcall (Call.openSession_of_none hsession)).symm⟩
  | openSession i call next hcall htask _ hunderway session hsession hnext =>
    refine .inr (.inl ⟨call.taskId, session, rfl, ?_, ?_⟩)
    · have hopens : next.openSession = some (call.taskId, session) := by
        rw [Call.openSession_of_session hnext, htask]
      exact (Executor.held_next_of_some hopens).trans (congrArg _
        (Executor.held_of_none hcall (Call.openSession_of_none hsession)).symm)
    · intro hnodup other hother
      rw [Executor.underway,
        Executor.held_of_some hcall (Call.underwayTask_of_true hunderway)] at hnodup
      rw [Executor.openSessions,
        Executor.held_of_none hcall (Call.openSession_of_none hsession)] at hother
      obtain ⟨second, hsecond, hopen⟩ := (Multiset.mem_filterMap _ _).mp hother
      apply (Multiset.nodup_cons.mp hnodup).1
      refine (Multiset.mem_filterMap _ _).mpr ⟨second, hsecond, ?_⟩
      obtain ⟨live, hlive, hpair⟩ := Option.map_eq_some_iff.mp hopen
      rw [Call.underwayTask_of_true (Call.underway_of_session hlive)]
      exact congrArg some (Prod.ext_iff.mp hpair).1
  | closeSession i call next hcall _ _ session hsession hunderway =>
    refine .inr (.inr (.inl ⟨call.taskId, session, rfl, ?_⟩))
    have hcloses := Call.openSession_of_none (Call.session_of_not_underway hunderway)
    exact (Executor.held_of_some hcall (Call.openSession_of_session hsession)).trans
      (congrArg _ (Executor.held_next_of_none hcloses).symm)
  | finish i call hcall keyId _ hunderway fresh hfresh =>
    have hnone := Call.openSession_of_none (Call.session_of_not_underway hunderway)
    exact .inl ⟨rfl, (Executor.held_append_of_none _ hfresh.openSession_eq_none).trans
      (Executor.held_of_none hcall hnone).symm⟩
  | dequeue queue _ => exact .inl ⟨rfl, rfl⟩
  | restart fresh hfresh =>
    exact .inr (.inr (.inr ⟨rfl, Executor.held_append_of_none [] hfresh.openSession_eq_none⟩))

namespace Executor

/-- The number of runs of `_run` in progress for a task. -/
def runsOf (e : Executor) (taskId : TaskId) : ℕ :=
  e.calls.countP fun call ↦ call.taskId == taskId && call.phase.inRun

/-- A task has one run at most, and the sessions map finds every session that is open. -/
structure OneSession (e : Executor) : Prop where
  single : ∀ taskId, e.runsOf taskId ≤ 1
  found : ∀ call ∈ e.calls, ∀ session, call.phase.session = some session →
    e.sessions.get call.taskId = some session

/-- The invariant behind it: tasks are underway once, and the sessions map indexes the open
sessions. -/
structure Exclusive (e : Executor) : Prop where
  underway : e.underway.Nodup
  sessions : Indexes e.sessions e.openSessions

theorem runsOf_le_count (e : Executor) (taskId : TaskId) :
    e.runsOf taskId ≤ e.underway.count taskId := by
  have hcalls (calls : List Call) :
      (calls.countP fun call ↦ call.taskId == taskId && call.phase.inRun) ≤
        (calls.filterMap Call.underwayTask).count taskId := by
    induction calls with
    | nil => exact le_refl _
    | cons call calls ih =>
      cases hunderway : call.phase.underway with
      | false =>
        have hrun : call.phase.inRun = false := by
          cases hrun : call.phase.inRun with
          | false => rfl
          | true =>
            rw [Call.underway_of_inRun hrun] at hunderway
            cases hunderway
        simpa [hrun, Call.underwayTask_of_false hunderway] using ih
      | true =>
        rw [List.countP_cons, List.filterMap_cons_some (Call.underwayTask_of_true hunderway),
          List.count_cons]
        have hhead : (if (call.taskId == taskId && call.phase.inRun) = true then 1 else 0) ≤
            if (call.taskId == taskId) = true then 1 else 0 := by
          cases call.taskId == taskId <;> cases call.phase.inRun <;> decide
        omega
  rw [Executor.underway, inFlight, Multiset.filterMap_coe, Multiset.coe_count]
  exact hcalls e.calls

theorem OneSession.of_exclusive {e : Executor} (h : e.Exclusive) : e.OneSession where
  single taskId :=
    (e.runsOf_le_count taskId).trans (Multiset.nodup_iff_count_le_one.mp h.underway taskId)
  found call hcall session hsession := by
    rw [h.sessions.get_iff]
    apply (Multiset.mem_filterMap _ _).mpr
    exact ⟨call, Multiset.mem_coe.mpr hcall, Call.openSession_of_session hsession⟩

/-- The invariant survives every move but a grant to a task underway. -/
theorem exclusive_of_move {e e' : Executor} {act : Act} (h : Move e act e')
    (hsole : ∀ taskId keyId, act = .grant taskId keyId → taskId ∉ e.underway)
    (hexclusive : e.Exclusive) : e'.Exclusive where
  underway := by
    obtain ⟨_, hle⟩ | ⟨taskId, keyId, hact, heq⟩ := h.underway_le
    · exact Multiset.nodup_of_le hle hexclusive.underway
    · rw [heq, Multiset.nodup_cons]
      exact ⟨hsole taskId keyId hact, hexclusive.underway⟩
  sessions := by
    have hindexes := hexclusive.sessions
    obtain ⟨hmap, hopen⟩ | ⟨taskId, session, hmap, hopen, habsent⟩ |
      ⟨taskId, session, hmap, hopen⟩ | ⟨hmap, hopen⟩ := h.sessions
    · rw [hmap, hopen]
      exact hindexes
    · have hfree : e.sessions.get taskId = none := by
        cases hget : e.sessions.get taskId with
        | none => rfl
        | some other =>
          exact absurd ((hindexes.get_iff taskId other).mp hget)
            (habsent hexclusive.underway other)
      rw [hmap, hopen]
      exact hindexes.set hfree session
    · rw [hmap]
      rw [hopen] at hindexes
      exact hindexes.delete
    · rw [hmap, hopen]
      exact Indexes.empty

end Executor

/-- A grant meets a task without a granted call whose `_run` has not ended. -/
def soleGrant (d : Daemon) (event : Event) : Bool :=
  match d.act event with
  | .grant taskId _ =>
    d.executor.calls.all fun call ↦ !(call.taskId == taskId && call.phase.underway)
  | _ => true

theorem not_underway_of_soleGrant {d : Daemon} {event : Event} (h : soleGrant d event = true)
    {taskId : TaskId} {keyId : KeyId} (hact : d.act event = .grant taskId keyId) :
    taskId ∉ d.executor.underway := by
  intro hmem
  obtain ⟨call, hcall, hunderway⟩ := (Multiset.mem_filterMap _ _).mp hmem
  unfold soleGrant at h
  rw [hact] at h
  have hidle := List.all_eq_true.mp h call (Multiset.mem_coe.mp hcall)
  unfold Call.underwayTask at hunderway
  split at hunderway
  · rename_i hphase
    simp [hphase, Option.some.inj hunderway] at hidle
  · cases hunderway

/-- Every run that grants a key only to tasks without an unfinished run keeps to one session per
task. -/
theorem oneSession_of_soleGrants (tasks : TaskTable) (ai : AiTables)
    (overBudget : List (Option ProjectId)) (maxConcurrentPerKey : ℕ) (events : List Event)
    (hevents : Disciplined step (fun d event ↦ soleGrant d event = true)
      (stopped tasks ai overBudget maxConcurrentPerKey) events) :
    (run step (stopped tasks ai overBudget maxConcurrentPerKey) events).executor.OneSession := by
  have hstep (d : Daemon) (event : Event) (hexclusive : d.executor.Exclusive)
      (hsole : soleGrant d event = true) : (step d event).executor.Exclusive := by
    apply Executor.exclusive_of_move (step_move d event) _ hexclusive
    intro taskId keyId hact
    exact not_underway_of_soleGrant hsole hact
  have hstart : (stopped tasks ai overBudget maxConcurrentPerKey).executor.Exclusive :=
    ⟨Multiset.nodup_zero, Indexes.empty⟩
  have hrun := run_invariant hstep hstart events hevents
  exact Executor.OneSession.of_exclusive hrun

theorem oneSession_separateRuns : (run step oneKey separateRuns).executor.OneSession :=
  oneSession_of_soleGrants TaskTable.empty { keys := [{ id := 1 }] } [] 5 separateRuns
    (by decide +kernel)

/-- A daemon that stopped while the execution task of a plan task was running. -/
abbrev stoppedMidRun : Daemon :=
  stopped (TaskTable.empty.insert { status := .running }) { keys := [{ id := 1 }] } [] 5

/-- Boot resumes the milestone of task 1 and then executes the ids of the stale reset; both calls
get their key, their context and their session. -/
def resumedTwice : List Event :=
  [.boot [] [⟨some 1, {}⟩], .resume 0, .resume 0, .resume 0, .resume 0, .contextBuilt 0 (some {}),
    .contextBuilt 0 (some {})]

/-- Two sessions are open for the task, and the map has lost the first. -/
theorem oneSession_fails_resumedTwice :
    ¬(run step stoppedMidRun resumedTwice).executor.OneSession := by
  intro h
  have htwo : (run step stoppedMidRun resumedTwice).executor.runsOf 1 = 2 := by decide +kernel
  have hone := h.single 1
  rw [htwo] at hone
  exact absurd hone (by decide)

end Flockctl.TaskExecutor
