import Mathlib.Data.List.Sort

/-!
# Provider-key selection

`selectKeyForTask` over the key, project and workspace tables it reads. An assigned key wins
when it exists and is not excluded; otherwise the active keys outside their disabled window are
ordered by priority and filtered by the task's failed keys, by the most specific whitelist and
by the keys excluded for this attempt, and the first one left is taken. JSON columns are given
by what `JSON.parse` makes of them.
-/

namespace Flockctl.Ai

abbrev KeyId := ℕ
abbrev ProjectId := ℕ
abbrev WorkspaceId := ℕ

/-- A JSON column of key ids: absent (NULL or the empty string), or a text with the number array
`jsonSafeParseNumberArray` reads out of it, which is missing when the text is malformed. -/
inductive KeyIdColumn
  | absent
  | text (parsed : Option (List KeyId))
  deriving DecidableEq, Repr

/-- `safeParseJsonArray`. -/
def safeParseJsonArray : KeyIdColumn → List KeyId
  | .absent => []
  | .text parsed => parsed.getD []

/-- A row of `ai_provider_keys`, as far as key selection reads it. -/
structure AiKey where
  id : KeyId
  priority : Option ℤ := some 0
  isActive : Bool := true
  disabledUntil : Option String := none
  deriving DecidableEq, Repr

structure ProjectRow where
  id : ProjectId
  workspaceId : Option WorkspaceId := none
  allowedKeyIds : KeyIdColumn := .absent
  deriving DecidableEq, Repr

structure WorkspaceRow where
  id : WorkspaceId
  allowedKeyIds : KeyIdColumn := .absent
  deriving DecidableEq, Repr

/-- The tables key selection reads, each in primary-key order, and the reading of
`datetime('now')`. -/
structure AiTables where
  keys : List AiKey := []
  projects : List ProjectRow := []
  workspaces : List WorkspaceRow := []
  now : String := ""
  deriving Repr

/-- The columns of a task row that `selectKeyForTask` reads. -/
structure TaskKeys where
  projectId : Option ProjectId := none
  assignedKeyId : Option KeyId := none
  failedKeyIds : KeyIdColumn := .absent
  allowedKeyIds : KeyIdColumn := .absent
  deriving DecidableEq, Repr

/-- `if (id)` on a nullable integer column: NULL and 0 are both falsy. -/
def truthyId : Option ℕ → Option ℕ
  | some (id + 1) => some (id + 1)
  | _ => none

/-- `resolveAllowedKeyIds` on a task, which carries no workspace id of its own. -/
def resolveAllowedKeyIds (tables : AiTables) (task : TaskKeys) : List KeyId :=
  match task.allowedKeyIds with
  | .text parsed => safeParseJsonArray (.text parsed)
  | .absent =>
    match truthyId task.projectId with
    | none => []
    | some projectId =>
      match tables.projects.find? (·.id == projectId) with
      | none => []
      | some project =>
        match project.allowedKeyIds with
        | .text parsed => safeParseJsonArray (.text parsed)
        | .absent =>
          match truthyId project.workspaceId with
          | none => []
          | some workspaceId =>
            match tables.workspaces.find? (·.id == workspaceId) with
            | none => []
            | some workspace => safeParseJsonArray workspace.allowedKeyIds

/-- `ORDER BY priority`: NULL first, then ascending. -/
def priorityLE (left right : AiKey) : Bool :=
  match left.priority, right.priority with
  | none, _ => true
  | some _, none => false
  | some leftPriority, some rightPriority => decide (leftPriority ≤ rightPriority)

/-- `is_active AND (disabled_until IS NULL OR disabled_until < datetime('now'))`. -/
def selectable (now : String) (key : AiKey) : Bool :=
  key.isActive && (match key.disabledUntil with
    | none => true
    | some until' => decide (until' < now))

def noAvailableKeys : String := "No available AI keys. Add a key via /keys endpoint."

/-- `if (ids.length > 0) candidates = candidates.filter(k => ids.has(k.id))`. -/
def restrictTo (ids : List KeyId) (candidates : List AiKey) : List AiKey :=
  if ids.isEmpty then candidates else candidates.filter fun key ↦ ids.contains key.id

/-- `candidates.filter(k => !ids.has(k.id))`. -/
def dropKeys (ids : List KeyId) (candidates : List AiKey) : List AiKey :=
  candidates.filter fun key ↦ !ids.contains key.id

/-- The candidates of one scheduling attempt, best first. -/
def candidates (tables : AiTables) (task : TaskKeys) (excludeKeyIds : List KeyId) : List AiKey :=
  dropKeys excludeKeyIds <|
    restrictTo (resolveAllowedKeyIds tables task) <|
      dropKeys (safeParseJsonArray task.failedKeyIds) <|
        (tables.keys.filter (selectable tables.now)).insertionSort fun left right ↦
          priorityLE left right

/-- The choice among the candidates, once no assigned key decides it. -/
def selectCandidate (tables : AiTables) (task : TaskKeys) (excludeKeyIds : List KeyId) :
    Except String AiKey :=
  match candidates tables task excludeKeyIds with
  | [] => .error noAvailableKeys
  | key :: _ => .ok key

/-- `selectKeyForTask`. The body has no `await`, so the answer is fixed when the call is made. -/
def selectKeyForTask (tables : AiTables) (task : TaskKeys) (excludeKeyIds : List KeyId) :
    Except String AiKey :=
  match truthyId task.assignedKeyId with
  | none => selectCandidate tables task excludeKeyIds
  | some assigned =>
    if excludeKeyIds.contains assigned then .error noAvailableKeys
    else match tables.keys.find? (·.id == assigned) with
      | some key => .ok key
      | none => selectCandidate tables task excludeKeyIds

end Flockctl.Ai

/-!
# When the whitelists bind the choice of a key

A task, its project and the workspace of its project may each carry a whitelist. The choice keeps
to the most specific one that has a key, unless a more specific column is a text without keys, or a
key is assigned to the task: this one is taken whatever the whitelists, its own columns and the
failed keys say. An attempt assigns the key it has used.
-/

namespace Flockctl.Ai

def projectOf (tables : AiTables) (task : TaskKeys) : Option ProjectRow :=
  (truthyId task.projectId).bind fun projectId ↦ tables.projects.find? (·.id == projectId)

def workspaceOf (tables : AiTables) (task : TaskKeys) : Option WorkspaceRow :=
  ((projectOf tables task).bind fun project ↦ truthyId project.workspaceId).bind
    fun workspaceId ↦ tables.workspaces.find? (·.id == workspaceId)

/-- `allowed_key_ids` of the task, its project and the workspace of its project. -/
def allowedColumns (tables : AiTables) (task : TaskKeys) : List KeyIdColumn :=
  [task.allowedKeyIds,
    ((projectOf tables task).map (·.allowedKeyIds)).getD .absent,
    ((workspaceOf tables task).map (·.allowedKeyIds)).getD .absent]

/-- The list of the most specific level that has one which is not empty. -/
def mostSpecificList (tables : AiTables) (task : TaskKeys) : Option (List KeyId) :=
  ((allowedColumns tables task).map safeParseJsonArray).find? (· ≠ [])

/-- The most specific whitelist, if there is one, has the key. -/
def Admitted (tables : AiTables) (task : TaskKeys) (key : AiKey) : Prop :=
  ∀ ids ∈ mostSpecificList tables task, key.id ∈ ids

/-! ## The law -/

/-- A key the choice may fall on. -/
structure Eligible (tables : AiTables) (task : TaskKeys) (excludeKeyIds : List KeyId)
    (key : AiKey) : Prop where
  stored : key ∈ tables.keys
  selectable : selectable tables.now key = true
  notFailed : key.id ∉ safeParseJsonArray task.failedKeyIds
  notExcluded : key.id ∉ excludeKeyIds
  admitted : Admitted tables task key

/-- An eligible key before which no other comes by its priority. -/
def Best (tables : AiTables) (task : TaskKeys) (excludeKeyIds : List KeyId) (key : AiKey) : Prop :=
  Eligible tables task excludeKeyIds key ∧
    ∀ other, Eligible tables task excludeKeyIds other → priorityLE key other = true

/-- Whatever key is returned is a best one. -/
def WhitelistEnforced (tables : AiTables) (task : TaskKeys) (excludeKeyIds : List KeyId) : Prop :=
  ∀ key, selectKeyForTask tables task excludeKeyIds = .ok key →
    Best tables task excludeKeyIds key

/-- The assigned key of a task, where it is stored. -/
def assignedKey (tables : AiTables) (task : TaskKeys) : Option AiKey :=
  (truthyId task.assignedKeyId).bind fun assigned ↦ tables.keys.find? (·.id == assigned)

/-- The active keys as the database lists them. -/
def keysByPriority (tables : AiTables) : List AiKey :=
  (tables.keys.filter (selectable tables.now)).insertionSort fun left right ↦ priorityLE left right

/-- The first of these that has not failed and is not excluded. -/
def firstOpenKey (tables : AiTables) (task : TaskKeys) (excludeKeyIds : List KeyId) :
    Option AiKey :=
  (keysByPriority tables).find? fun key ↦
    !(safeParseJsonArray task.failedKeyIds).contains key.id && !excludeKeyIds.contains key.id

/-- The assigned key is excluded; or it is stored and a best one; or there is none that is stored,
and no text without keys stands at a more specific level than the most specific list, or the first
open key is in that list anyway. -/
def ChoiceIsBound (tables : AiTables) (task : TaskKeys) (excludeKeyIds : List KeyId) : Prop :=
  (∃ assigned ∈ truthyId task.assignedKeyId, assigned ∈ excludeKeyIds) ∨
    match assignedKey tables task with
    | some key => Best tables task excludeKeyIds key
    | none => mostSpecificList tables task = none ∨
        (∃ column ∈ (allowedColumns tables task).find? (· ≠ .absent),
          safeParseJsonArray column ≠ []) ∨
        ∀ key ∈ firstOpenKey tables task excludeKeyIds, Admitted tables task key

/-! ## The list that is used -/

theorem resolveAllowedKeyIds_eq (tables : AiTables) (task : TaskKeys) :
    resolveAllowedKeyIds tables task =
      (((allowedColumns tables task).find? (· ≠ .absent)).map safeParseJsonArray).getD [] := by
  unfold resolveAllowedKeyIds allowedColumns workspaceOf projectOf
  cases htask : task.allowedKeyIds with
  | text parsed => simp
  | absent =>
    cases truthyId task.projectId with
    | none => simp
    | some projectId =>
      simp only [Option.bind_some]
      cases tables.projects.find? (·.id == projectId) with
      | none => simp
      | some project =>
        cases hproject : project.allowedKeyIds with
        | text parsed => simp [hproject]
        | absent =>
          cases hworkspace : truthyId project.workspaceId with
          | none => simp [hproject, hworkspace]
          | some workspaceId =>
            cases hrow : tables.workspaces.find? (·.id == workspaceId) with
            | none => simp [hproject, hworkspace, hrow]
            | some workspace =>
              cases hcolumn : workspace.allowedKeyIds with
              | absent => simp [hproject, hworkspace, hrow, hcolumn, safeParseJsonArray]
              | text parsed => simp [hproject, hworkspace, hrow, hcolumn]

/-- A present column before which all are absent gives the most specific list, if it has a key. -/
theorem find_ne_nil {columns : List KeyIdColumn} {column : KeyIdColumn}
    (h : columns.find? (· ≠ .absent) = some column) (hids : safeParseJsonArray column ≠ []) :
    (columns.map safeParseJsonArray).find? (· ≠ []) = some (safeParseJsonArray column) := by
  induction columns with
  | nil => cases h
  | cons first rest ih =>
    by_cases habsent : first = .absent
    · rw [List.find?_cons_of_neg (by simp [habsent])] at h
      rw [List.map_cons, List.find?_cons_of_neg (by simp [habsent, safeParseJsonArray]), ih h]
    · rw [List.find?_cons_of_pos (by simp [habsent])] at h
      obtain rfl : first = column := Option.some.inj h
      rw [List.map_cons, List.find?_cons_of_pos (by simpa using hids)]

theorem resolved_ne_nil_iff (tables : AiTables) (task : TaskKeys) :
    resolveAllowedKeyIds tables task ≠ [] ↔
      ∃ column ∈ (allowedColumns tables task).find? (· ≠ .absent),
        safeParseJsonArray column ≠ [] := by
  rw [resolveAllowedKeyIds_eq]
  cases (allowedColumns tables task).find? (· ≠ .absent) with
  | none => simp
  | some column => simp

theorem mostSpecificList_of_resolved {tables : AiTables} {task : TaskKeys}
    (h : resolveAllowedKeyIds tables task ≠ []) :
    mostSpecificList tables task = some (resolveAllowedKeyIds tables task) := by
  obtain ⟨column, hcolumn, hids⟩ := (resolved_ne_nil_iff tables task).mp h
  rw [resolveAllowedKeyIds_eq, Option.mem_def.mp hcolumn, Option.map_some, Option.getD_some]
  exact find_ne_nil hcolumn hids

/-! ## The candidates -/

theorem priorityLE_total (left right : AiKey) :
    priorityLE left right = true ∨ priorityLE right left = true := by
  unfold priorityLE
  cases left.priority <;> cases right.priority <;> simp [Int.le_total]

theorem priorityLE_trans {left middle right : AiKey} (h : priorityLE left middle = true)
    (h' : priorityLE middle right = true) : priorityLE left right = true := by
  unfold priorityLE at *
  cases hleft : left.priority <;> cases hmiddle : middle.priority <;>
    cases hright : right.priority <;> simp_all
  omega

theorem pairwise_keysByPriority (tables : AiTables) :
    (keysByPriority tables).Pairwise fun left right ↦ priorityLE left right = true := by
  have htotal : Std.Total fun left right : AiKey ↦ priorityLE left right = true :=
    ⟨priorityLE_total⟩
  have htrans : IsTrans AiKey fun left right ↦ priorityLE left right = true :=
    ⟨fun _ _ _ ↦ priorityLE_trans⟩
  exact List.pairwise_insertionSort _ _

theorem mem_candidates_iff (tables : AiTables) (task : TaskKeys) (excludeKeyIds : List KeyId)
    (key : AiKey) : key ∈ candidates tables task excludeKeyIds ↔
      (key ∈ tables.keys ∧ selectable tables.now key = true ∧
        key.id ∉ safeParseJsonArray task.failedKeyIds ∧ key.id ∉ excludeKeyIds) ∧
      (resolveAllowedKeyIds tables task = [] ∨ key.id ∈ resolveAllowedKeyIds tables task) := by
  have hrestrict : ∀ ids list, key ∈ restrictTo ids list ↔
      key ∈ list ∧ (ids = [] ∨ key.id ∈ ids) := by
    intro ids list
    cases ids with
    | nil => simp [restrictTo]
    | cons first rest => simp [restrictTo]
  rw [candidates, dropKeys, List.mem_filter, hrestrict, dropKeys, List.mem_filter,
    List.mem_insertionSort, List.mem_filter]
  simp only [Bool.not_eq_true', List.contains_eq_mem, decide_eq_false_iff_not]
  tauto

/-- The choice among the candidates is first by priority. -/
theorem selectCandidate_first {tables : AiTables} {task : TaskKeys} {excludeKeyIds : List KeyId}
    {key : AiKey} (h : selectCandidate tables task excludeKeyIds = .ok key) :
    key ∈ candidates tables task excludeKeyIds ∧
      ∀ other ∈ candidates tables task excludeKeyIds, priorityLE key other = true := by
  have hsorted : (candidates tables task excludeKeyIds).Pairwise fun left right ↦
      priorityLE left right = true := by
    have hrestrict : ∀ ids list, (restrictTo ids list).Sublist list := by
      intro ids list
      unfold restrictTo
      split
      · exact List.Sublist.refl _
      · exact List.filter_sublist
    exact List.Pairwise.sublist
      ((List.filter_sublist.trans (hrestrict _ _)).trans List.filter_sublist)
      (pairwise_keysByPriority tables)
  rw [selectCandidate] at h
  split at h
  · cases h
  · rename_i first rest hlist
    obtain rfl : first = key := Except.ok.inj h
    rw [hlist] at hsorted ⊢
    refine ⟨List.mem_cons_self, fun other hother ↦ ?_⟩
    rcases List.mem_cons.mp hother with rfl | hrest
    · exact (priorityLE_total other other).elim id id
    · exact List.rel_of_pairwise_cons hsorted hrest

/-! ## The choice without an assigned key -/

section

variable {tables : AiTables} {task : TaskKeys} {excludeKeyIds : List KeyId}

theorem mem_candidates_of_eligible {key : AiKey} (h : Eligible tables task excludeKeyIds key) :
    key ∈ candidates tables task excludeKeyIds := by
  rw [mem_candidates_iff]
  refine ⟨⟨h.stored, h.selectable, h.notFailed, h.notExcluded⟩, ?_⟩
  by_cases hids : resolveAllowedKeyIds tables task = []
  · exact Or.inl hids
  · exact Or.inr (h.admitted _ (mostSpecificList_of_resolved hids))

theorem best_iff_admitted {key : AiKey}
    (h : selectCandidate tables task excludeKeyIds = .ok key) :
    Best tables task excludeKeyIds key ↔ Admitted tables task key := by
  obtain ⟨hmem, hfirst⟩ := selectCandidate_first h
  obtain ⟨⟨hstored, hselectable, hfailed, hexcluded⟩, -⟩ :=
    (mem_candidates_iff tables task excludeKeyIds key).mp hmem
  constructor
  · exact fun hbest ↦ hbest.1.admitted
  · intro hadmitted
    exact ⟨⟨hstored, hselectable, hfailed, hexcluded, hadmitted⟩,
      fun other hother ↦ hfirst other (mem_candidates_of_eligible hother)⟩

/-- A list that is used is the most specific one. -/
theorem admitted_of_resolved {key : AiKey}
    (h : selectCandidate tables task excludeKeyIds = .ok key)
    (hids : resolveAllowedKeyIds tables task ≠ []) : Admitted tables task key := by
  obtain ⟨hmem, -⟩ := selectCandidate_first h
  have hallowed := ((mem_candidates_iff tables task excludeKeyIds key).mp hmem).2
  intro ids hlist
  rw [mostSpecificList_of_resolved hids] at hlist
  rw [← Option.some.inj hlist]
  exact hallowed.resolve_left hids

/-- Without a list the first open key is chosen. -/
theorem selectCandidate_of_unrestricted (hids : resolveAllowedKeyIds tables task = [])
    (key : AiKey) : selectCandidate tables task excludeKeyIds = .ok key ↔
      firstOpenKey tables task excludeKeyIds = some key := by
  have hcandidates : candidates tables task excludeKeyIds = (keysByPriority tables).filter
      fun key ↦ !(safeParseJsonArray task.failedKeyIds).contains key.id &&
        !excludeKeyIds.contains key.id := by
    rw [candidates, hids, restrictTo, List.isEmpty_nil, if_pos rfl, dropKeys, dropKeys,
      List.filter_filter]
    apply List.filter_congr
    intro other _
    exact Bool.and_comm _ _
  rw [firstOpenKey, ← List.head?_filter, ← hcandidates, selectCandidate]
  cases candidates tables task excludeKeyIds with
  | nil => simp
  | cons first rest => simp

theorem candidateEnforced_iff :
    (∀ key, selectCandidate tables task excludeKeyIds = .ok key →
      Best tables task excludeKeyIds key) ↔
    mostSpecificList tables task = none ∨
      (∃ column ∈ (allowedColumns tables task).find? (· ≠ .absent),
        safeParseJsonArray column ≠ []) ∨
      ∀ key ∈ firstOpenKey tables task excludeKeyIds, Admitted tables task key := by
  rw [← resolved_ne_nil_iff]
  constructor
  · intro h
    by_cases hids : resolveAllowedKeyIds tables task = []
    · right
      right
      intro key hkey
      have hselect := (selectCandidate_of_unrestricted hids key).mpr hkey
      exact (best_iff_admitted hselect).mp (h key hselect)
    · exact Or.inr (Or.inl hids)
  · intro h key hselect
    rw [best_iff_admitted hselect]
    rcases h with hnone | hids | hfirst
    · intro ids hlist
      rw [hnone] at hlist
      cases hlist
    · exact admitted_of_resolved hselect hids
    · by_cases hids : resolveAllowedKeyIds tables task = []
      · exact hfirst key ((selectCandidate_of_unrestricted hids key).mp hselect)
      · exact admitted_of_resolved hselect hids

end

/-! ## The law -/

/-- The whitelists bind the choice exactly when the choice is bound by the state before it. -/
theorem whitelistEnforced_iff (tables : AiTables) (task : TaskKeys) (excludeKeyIds : List KeyId) :
    WhitelistEnforced tables task excludeKeyIds ↔ ChoiceIsBound tables task excludeKeyIds := by
  rw [WhitelistEnforced, ChoiceIsBound]
  cases hassigned : truthyId task.assignedKeyId with
  | none =>
    have hkey : assignedKey tables task = none := by rw [assignedKey, hassigned, Option.bind_none]
    have hselect : selectKeyForTask tables task excludeKeyIds =
        selectCandidate tables task excludeKeyIds := by
      simp only [selectKeyForTask, hassigned]
    simp only [hkey, hselect, candidateEnforced_iff]
    simp
  | some assigned =>
    by_cases hexcluded : assigned ∈ excludeKeyIds
    · have hselect : selectKeyForTask tables task excludeKeyIds = .error noAvailableKeys := by
        simp only [selectKeyForTask, hassigned, List.contains_eq_mem, hexcluded, decide_true,
          if_true]
      simp [hselect, hexcluded]
    · cases hfind : tables.keys.find? (·.id == assigned) with
      | none =>
        have hkey : assignedKey tables task = none := by
          rw [assignedKey, hassigned, Option.bind_some, hfind]
        have hselect : selectKeyForTask tables task excludeKeyIds =
            selectCandidate tables task excludeKeyIds := by
          simp only [selectKeyForTask, hassigned, List.contains_eq_mem, hexcluded, decide_false,
            hfind]
          rfl
        simp only [hkey, hselect, candidateEnforced_iff]
        simp [hexcluded]
      | some key =>
        have hkey : assignedKey tables task = some key := by
          rw [assignedKey, hassigned, Option.bind_some, hfind]
        have hselect : selectKeyForTask tables task excludeKeyIds = .ok key := by
          simp only [selectKeyForTask, hassigned, List.contains_eq_mem, hexcluded, decide_false,
            hfind]
          rfl
        simp [hkey, hselect, hexcluded]

/-- A task whose second attempt takes the key that has failed, since the first one assigned it. -/
theorem not_whitelistEnforced :
    ¬ ∀ tables task excludeKeyIds, WhitelistEnforced tables task excludeKeyIds := by
  intro h
  have hbest := h { keys := [{ id := 1 }, { id := 2 }] }
    { assignedKeyId := some 1, failedKeyIds := .text (some [1]) } [] { id := 1 } rfl
  exact hbest.1.notFailed (by decide)

end Flockctl.Ai
