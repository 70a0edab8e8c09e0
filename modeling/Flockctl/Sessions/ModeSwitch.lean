import Flockctl.Sessions.AgentSession
import Flockctl.Transition.Run

/-!
# Switching the permission mode of a live session

`canUseTool` decides a tool call when it is made, and `updatePermissionMode` decides the pending
ones again when the mode changes. The two decisions are written separately. They agree on what the
modes `default`, `auto` and `bypassPermissions` allow; in `acceptEdits` and `plan` the first one
allows the read-only tools as well, which the second one leaves pending.
-/

namespace Flockctl.Sessions

open Collections Paths Permissions Transition

/-- No pending permission is one the current mode would allow at once, and no call was allowed by a
change of the mode that the new mode would not allow. -/
structure NoStalePrompt (host : Host) (s : AgentSession) : Prop where
  pending : ∀ requestId toolName input,
    s.pendingInteractive.get requestId = some (.permission toolName input) →
    decideTool host s.permissionMode toolName input s.allowedRoots ≠ .allow
  resolved : ∀ mode toolName input, (mode, toolName, input) ∈ s.autoResolved →
    decideTool host mode toolName input s.allowedRoots = .allow

/-- A permission for a read-only tool is pending. -/
def readPending (s : AgentSession) : Bool :=
  s.pendingInteractive.entries.any fun entry ↦
    match entry.2 with
    | .permission toolName _ => READ_ONLY_TOOLS.contains toolName
    | .question => false

/-- The mode changes to `acceptEdits` or `plan` only while no read is pending. -/
def switchesCleanly (s : AgentSession) : SessionEvent → Bool
  | .updatePermissionMode mode =>
    mode == s.permissionMode || (mode != .acceptEdits && mode != .plan) || !readPending s
  | .canUseTool _ _ | .resolvePermission _ | .awaitUserAnswer | .resolveQuestion _ | .abort => true

theorem readPending_eq_true_iff (s : AgentSession) :
    readPending s = true ↔ ∃ requestId toolName input,
      s.pendingInteractive.get requestId = some (.permission toolName input) ∧
        READ_ONLY_TOOLS.contains toolName = true := by
  simp only [readPending, List.any_eq_true, Prod.exists, ← JsMap.mem_entries_iff]
  constructor
  · rintro ⟨requestId, entry, hentry, hread⟩
    cases entry with
    | permission toolName input => exact ⟨requestId, toolName, input, hentry, hread⟩
    | question => cases hread
  · rintro ⟨requestId, toolName, input, hentry, hread⟩
    exact ⟨requestId, _, hentry, hread⟩

/-- What a pending entry may be decided as now: never a denial, for the denylist has let it
through and it does not depend on the mode. -/
structure Consistent (host : Host) (s : AgentSession) : Prop where
  fresh : NoStalePrompt host s
  admitted : ∀ requestId toolName input,
    s.pendingInteractive.get requestId = some (.permission toolName input) →
    denyIfTouchesSensitivePath host toolName input s.allowedRoots = none

section

variable {host : Host} {toolName : String} {input : ToolInput} {roots : List AbsolutePath}

/-- On an admitted call the modes allow what their branch of `canUseTool` says. -/
theorem decideTool_eq_allow_iff
    (hadmitted : denyIfTouchesSensitivePath host toolName input roots = none)
    (mode : PermissionMode) :
    decideTool host mode toolName input roots = .allow ↔
      AgentSession.autoResolves host mode roots (.permission toolName input) = true ∨
        ((mode = .acceptEdits ∨ mode = .plan) ∧ READ_ONLY_TOOLS.contains toolName = true) := by
  unfold decideTool
  rw [hadmitted]
  cases mode with
  | default => simp [AgentSession.autoResolves]
  | acceptEdits =>
    cases hwrite : FILE_WRITE_TOOLS.contains toolName <;>
      simp only [AgentSession.autoResolves, hwrite] <;> simp
  | plan => simp [AgentSession.autoResolves]
  | bypassPermissions => simp [AgentSession.autoResolves]
  | auto =>
    cases hauto : (decideAuto host toolName input roots).isAllow <;>
      simp [AgentSession.autoResolves, hauto]

/-- No tool both reads and writes. -/
theorem not_write_of_read (hread : READ_ONLY_TOOLS.contains toolName = true) :
    FILE_WRITE_TOOLS.contains toolName = false := by
  simp only [READ_ONLY_TOOLS, List.contains_cons, List.contains_nil, Bool.or_false,
    Bool.or_eq_true, beq_iff_eq] at hread
  rcases hread with rfl | rfl | rfl | rfl | rfl | rfl <;> decide

end

namespace Consistent

variable {host : Host} {s : AgentSession}

theorem initial (ref : AgentRef) (mode : PermissionMode) (roots : List AbsolutePath) :
    Consistent host { ref := ref, permissionMode := mode, allowedRoots := roots } where
  fresh := by
    constructor
    · intro requestId toolName input hget
      cases hget
    · intro mode toolName input hmem
      cases hmem
  admitted requestId toolName input hget := by cases hget

/-- Entries may go. -/
theorem of_pending_subset (h : Consistent host s) {pending : JsMap RequestId InteractiveEntry}
    (hsubset : ∀ requestId entry, pending.get requestId = some entry →
      s.pendingInteractive.get requestId = some entry ∨ entry = .question)
    {permissions questions : ℕ} {aborted : Bool} :
    Consistent host
      { s with
        pendingInteractive := pending, permissionCounter := permissions,
        questionCounter := questions, aborted := aborted } := by
  have hold (requestId : RequestId) (toolName : String) (input : ToolInput)
      (hget : pending.get requestId = some (.permission toolName input)) :
      s.pendingInteractive.get requestId = some (.permission toolName input) := by
    rcases hsubset requestId _ hget with hsame | hquestion
    · exact hsame
    · cases hquestion
  refine ⟨⟨?_, h.fresh.resolved⟩, ?_⟩
  · intro requestId toolName input hget
    exact h.fresh.pending requestId toolName input (hold requestId toolName input hget)
  · intro requestId toolName input hget
    exact h.admitted requestId toolName input (hold requestId toolName input hget)

theorem canUseTool (h : Consistent host s) (toolName : String) (input : ToolInput) :
    Consistent host (s.canUseTool host toolName input).1 := by
  unfold AgentSession.canUseTool
  cases hdecision : decideTool host s.permissionMode toolName input s.allowedRoots with
  | allow => exact h
  | deny message => exact h
  | prompt =>
    cases haborted : s.aborted with
    | true => exact h.of_pending_subset fun _ _ hget ↦ Or.inl hget
    | false =>
      have hadmitted : denyIfTouchesSensitivePath host toolName input s.allowedRoots = none := by
        apply Option.eq_none_iff_forall_ne_some.mpr
        intro message hdenied
        rw [← decideTool_eq_deny_iff host s.permissionMode, hdecision] at hdenied
        cases hdenied
      have hpending (requestId : RequestId) (otherTool : String) (otherInput : ToolInput)
          (hget : (s.pendingInteractive.set ⟨.permission, s.ref, s.permissionCounter + 1⟩
            (.permission toolName input)).get requestId =
              some (.permission otherTool otherInput)) :
          decideTool host s.permissionMode otherTool otherInput s.allowedRoots ≠ .allow ∧
            denyIfTouchesSensitivePath host otherTool otherInput s.allowedRoots = none := by
        rw [JsMap.get_set] at hget
        split at hget
        · cases hget
          rw [hdecision]
          exact ⟨by simp, hadmitted⟩
        · exact ⟨h.fresh.pending _ _ _ hget, h.admitted _ _ _ hget⟩
      exact ⟨⟨fun _ _ _ hget ↦ (hpending _ _ _ hget).1, h.fresh.resolved⟩,
        fun _ _ _ hget ↦ (hpending _ _ _ hget).2⟩

theorem resolvePermission (h : Consistent host s) (requestId : RequestId) :
    Consistent host (s.resolvePermission requestId).1 := by
  unfold AgentSession.resolvePermission
  split
  · apply h.of_pending_subset
    intro other entry hget
    exact Or.inl (JsMap.get_delete_eq_some_iff.mp hget).2
  · exact h

theorem resolveQuestion (h : Consistent host s) (requestId : RequestId) :
    Consistent host (s.resolveQuestion requestId).1 := by
  unfold AgentSession.resolveQuestion
  split
  · apply h.of_pending_subset
    intro other entry hget
    exact Or.inl (JsMap.get_delete_eq_some_iff.mp hget).2
  · exact h

theorem awaitUserAnswer (h : Consistent host s) : Consistent host s.awaitUserAnswer.1 := by
  unfold AgentSession.awaitUserAnswer
  cases haborted : s.aborted with
  | true => exact h.of_pending_subset fun _ _ hget ↦ Or.inl hget
  | false =>
    apply h.of_pending_subset
    intro other entry hget
    rw [JsMap.get_set] at hget
    split at hget
    · exact Or.inr (Option.some.inj hget).symm
    · exact Or.inl hget

theorem abort (h : Consistent host s) : Consistent host s.abort := by
  apply h.of_pending_subset
  intro other entry hget
  cases hget

end Consistent

theorem mem_resolvedCalls_iff (host : Host) (mode : PermissionMode) (roots : List AbsolutePath)
    (entries : List (RequestId × InteractiveEntry)) (call : PermissionMode × String × ToolInput) :
    call ∈ AgentSession.resolvedCalls host mode roots entries ↔
      call.1 = mode ∧ ∃ requestId, (requestId, .permission call.2.1 call.2.2) ∈ entries ∧
        AgentSession.autoResolves host mode roots (.permission call.2.1 call.2.2) = true := by
  obtain ⟨callMode, callTool, callInput⟩ := call
  rw [AgentSession.resolvedCalls, List.mem_filterMap]
  constructor
  · rintro ⟨⟨requestId, entry⟩, hentry, hcall⟩
    cases entry with
    | question => cases hcall
    | permission toolName input =>
      dsimp only at hcall
      split at hcall
      · rename_i hresolves
        cases hcall
        exact ⟨rfl, requestId, hentry, hresolves⟩
      · cases hcall
  · rintro ⟨rfl, requestId, hentry, hresolves⟩
    exact ⟨(requestId, .permission callTool callInput), hentry, if_pos hresolves⟩

/-- A clean switch resolves exactly what the new mode allows. -/
theorem Consistent.updatePermissionMode {host : Host} {s : AgentSession} (h : Consistent host s)
    {mode : PermissionMode} (hclean : switchesCleanly s (.updatePermissionMode mode) = true) :
    Consistent host (s.updatePermissionMode host mode) := by
  unfold AgentSession.updatePermissionMode
  by_cases hsame : s.permissionMode = mode
  · rw [if_pos hsame]
    exact h
  · rw [if_neg hsame]
    have hleft (requestId : RequestId) (toolName : String) (input : ToolInput)
        (hget : (s.pendingInteractive.filter fun _ entry ↦
          !AgentSession.autoResolves host mode s.allowedRoots entry).get requestId =
            some (.permission toolName input)) :
        s.pendingInteractive.get requestId = some (.permission toolName input) ∧
          AgentSession.autoResolves host mode s.allowedRoots (.permission toolName input) =
            false := by
      rw [JsMap.get_filter, Option.filter_eq_some_iff] at hget
      exact ⟨hget.1, by simpa using hget.2⟩
    refine ⟨⟨?_, ?_⟩, ?_⟩
    · intro requestId toolName input hget hallow
      obtain ⟨hold, hnotResolved⟩ := hleft requestId toolName input hget
      have hadmitted := h.admitted requestId toolName input hold
      rcases (decideTool_eq_allow_iff hadmitted mode).mp hallow with hresolved | hread
      · rw [hnotResolved] at hresolved
        cases hresolved
      · have hpending : readPending s = true :=
          (readPending_eq_true_iff s).mpr ⟨requestId, toolName, input, hold, hread.2⟩
        rcases hread.1 with rfl | rfl <;>
          simp [switchesCleanly, hpending, Ne.symm hsame] at hclean
    · intro callMode toolName input hmem
      rcases List.mem_append.mp hmem with hnew | hold
      · obtain ⟨hmode, requestId, hentry, hresolves⟩ :=
          (mem_resolvedCalls_iff host mode s.allowedRoots _ _).mp hnew
        change callMode = mode at hmode
        have hadmitted := h.admitted requestId toolName input
          ((s.pendingInteractive.mem_entries_iff _ _).mp hentry)
        rw [hmode]
        exact (decideTool_eq_allow_iff hadmitted mode).mpr (Or.inl hresolves)
      · exact h.fresh.resolved callMode toolName input hold
    · intro requestId toolName input hget
      exact h.admitted requestId toolName input (hleft requestId toolName input hget).1

/-- A switch that is not clean leaves a read pending that the new mode allows. -/
theorem switchesCleanly_of_fresh {host : Host} {s : AgentSession} (h : Consistent host s)
    {mode : PermissionMode} (hfresh : NoStalePrompt host (s.updatePermissionMode host mode)) :
    switchesCleanly s (.updatePermissionMode mode) = true := by
  by_contra hclean
  simp only [switchesCleanly, Bool.or_eq_true, Bool.and_eq_true, beq_iff_eq, bne_iff_ne,
    Bool.not_eq_true', not_or, not_and_or, not_not, Bool.not_eq_false] at hclean
  obtain ⟨⟨hsame, hmode⟩, hread⟩ := hclean
  obtain ⟨requestId, toolName, input, hget, hread⟩ := (readPending_eq_true_iff s).mp hread
  have hkept : AgentSession.autoResolves host mode s.allowedRoots (.permission toolName input) =
      false := by
    rcases hmode with rfl | rfl
    · exact not_write_of_read hread
    · rfl
  have hswitch : s.updatePermissionMode host mode =
      AgentSession.autoResolvePendingForMode host { s with permissionMode := mode } mode :=
    if_neg (Ne.symm hsame)
  rw [hswitch] at hfresh
  have hpending : (s.pendingInteractive.filter fun _ entry ↦
      !AgentSession.autoResolves host mode s.allowedRoots entry).get requestId =
        some (.permission toolName input) := by
    rw [JsMap.get_filter, Option.filter_eq_some_iff]
    exact ⟨hget, by simp [hkept]⟩
  exact hfresh.pending requestId toolName input hpending
    ((decideTool_eq_allow_iff (h.admitted requestId toolName input hget) mode).mpr
      (Or.inr ⟨hmode, hread⟩))

/-- The sessions without stale prompts throughout are those that never switch to `acceptEdits` or
`plan` while a read is pending. -/
theorem modeSwitch_leaves_noStalePrompt (host : Host) (ref : AgentRef) (mode : PermissionMode)
    (roots : List AbsolutePath) (events : List SessionEvent) :
    (∀ before, before <+: events → NoStalePrompt host (run (AgentSession.step host)
      { ref := ref, permissionMode := mode, allowedRoots := roots } before)) ↔
    Disciplined (AgentSession.step host) (fun s event ↦ switchesCleanly s event = true)
      { ref := ref, permissionMode := mode, allowedRoots := roots } events := by
  have hstep (s : AgentSession) (event : SessionEvent) (h : Consistent host s)
      (hclean : switchesCleanly s event = true) : Consistent host (s.step host event) := by
    cases event with
    | canUseTool toolName input => exact h.canUseTool toolName input
    | resolvePermission requestId => exact h.resolvePermission requestId
    | updatePermissionMode mode => exact h.updatePermissionMode hclean
    | awaitUserAnswer => exact h.awaitUserAnswer
    | resolveQuestion requestId => exact h.resolveQuestion requestId
    | abort => exact h.abort
  have hexact (s : AgentSession) (event : SessionEvent) (h : Consistent host s)
      (hfresh : NoStalePrompt host (s.step host event)) : switchesCleanly s event = true := by
    cases event with
    | updatePermissionMode mode => exact switchesCleanly_of_fresh h hfresh
    | canUseTool | resolvePermission | awaitUserAnswer | resolveQuestion | abort => rfl
  exact disciplined_iff_good hstep (fun s h ↦ h.fresh) hexact (Consistent.initial ref mode roots)
    events

/-- A `Read` that waits under `default` still waits after the switch to `acceptEdits` or to
`plan`, although both would have allowed it. -/
theorem read_stays_pending :
    ¬NoStalePrompt ⟨⟨[], by simp⟩, ⟨[], by simp⟩⟩
      (run (AgentSession.step ⟨⟨[], by simp⟩, ⟨[], by simp⟩⟩)
        { ref := .task 5, permissionMode := .default }
        [.canUseTool "Read" fun _ ↦ none, .updatePermissionMode .acceptEdits]) ∧
    ¬NoStalePrompt ⟨⟨[], by simp⟩, ⟨[], by simp⟩⟩
      (run (AgentSession.step ⟨⟨[], by simp⟩, ⟨[], by simp⟩⟩)
        { ref := .task 5, permissionMode := .default }
        [.canUseTool "Read" fun _ ↦ none, .updatePermissionMode .plan]) := by
  constructor
  · intro hfresh
    exact hfresh.pending ⟨.permission, .task 5, 1⟩ "Read" (fun _ ↦ none) rfl rfl
  · intro hfresh
    exact hfresh.pending ⟨.permission, .task 5, 1⟩ "Read" (fun _ ↦ none) rfl rfl

end Flockctl.Sessions
