import Flockctl.StateMachines.MermaidParser
import Mathlib.Data.List.Forall2

/-!
# What the strict parser accepts

The grammar of a line is stated by itself: an arrow from `[*]` to a state name, from a state name
to `[*]`, or between two state names with a label behind a colon, with white space around the parts.
The parser reads a line exactly when the grammar does. It accepts a text exactly when every line is
read and the initial arrows agree, and otherwise reports exactly the lines that break this.
-/

namespace Flockctl.StateMachines

open Collections

/-! ## The grammar -/

/-- The line says what the statement says. -/
inductive Reads : Text → Statement → Prop where
  | initial {before after name : Text} (hbefore : Padded TERMINAL_MARK before)
      (hafter : Padded name after) (hname : isStateName name = true) :
      Reads (before ++ (ARROW ++ after)) (.initial name)
  | final {before after name : Text} (hbefore : Padded name before)
      (hafter : Padded TERMINAL_MARK after) (hname : isStateName name = true) :
      Reads (before ++ (ARROW ++ after)) (.final name)
  | transition {before middle label : Text} {transition : Transition}
      (hbefore : Padded transition.source before) (hsource : isStateName transition.source = true)
      (hmiddle : Padded transition.target middle) (htarget : isStateName transition.target = true)
      (hlabel : Padded transition.event label) (hne : transition.event ≠ [])
      (htrimmed : IsTrimmed transition.event) :
      Reads (before ++ (ARROW ++ (middle ++ ([':'] ++ label)))) (.transition transition)

/-- The numbered lines that are not blank but for a comment. -/
def meaningfulLines (text : Text) : List (ℕ × Text) :=
  (numberedLines text).filter fun line ↦ decide (line.2 ≠ [])

/-- The meaningful lines without a header in front. -/
def body (text : Text) : List (ℕ × Text) :=
  match meaningfulLines text with
  | [] => []
  | line :: rest => if isHeader line.2 = true then rest else line :: rest

/-- A line declares this initial state. -/
def Declares (lines : List (ℕ × Text)) (state : Text) : Prop :=
  ∃ line ∈ lines, Reads line.2 (.initial state)

/-- The first line that declares an initial state declares this one. -/
def DeclaresFirst (lines : List (ℕ × Text)) (state : Text) : Prop :=
  ∃ before line after, lines = before ++ line :: after ∧ Reads line.2 (.initial state) ∧
    ∀ other, ¬Declares before other

/-- A line that is not in the grammar, or declares another initial state than the lines before. -/
def Offends (before : List (ℕ × Text)) (line : Text) : Prop :=
  (∀ statement, ¬Reads line statement) ∨
    ∃ first state, DeclaresFirst before first ∧ Reads line (.initial state) ∧ first ≠ state

/-- The line with this number offends. -/
def OffendsAt (lines : List (ℕ × Text)) (number : ℕ) : Prop :=
  ∃ before line after, lines = before ++ line :: after ∧ line.1 = number ∧ Offends before line.2

/-- The states that a statement names, from left to right. -/
def Statement.mentions : Statement → List Text
  | .initial target => [target]
  | .final source => [source]
  | .transition edge => [edge.source, edge.target]

def Statement.transition? : Statement → Option Transition
  | .transition edge => some edge
  | _ => none

def Statement.final? : Statement → Option Text
  | .final source => some source
  | _ => none

/-- The elements of a list in the order of their first occurrences, each once. -/
structure InMentionOrder (mentions states : List Text) : Prop where
  mem_iff : ∀ state, state ∈ states ↔ state ∈ mentions
  ordered : states.Pairwise fun first second ↦ mentions.idxOf first < mentions.idxOf second

/-- The machine says what the statements say. -/
structure Describes (statements : List Statement) (machine : StateMachine) : Prop where
  initial : .initial machine.initial ∈ statements
  states : InMentionOrder (statements.flatMap Statement.mentions) machine.states
  transitions : machine.transitions = statements.filterMap Statement.transition?
  final : InMentionOrder (statements.filterMap Statement.final?) (machine.final.getD [])
  final_none : machine.final = none ↔ statements.filterMap Statement.final? = []

/-! ## Reading a line -/

theorem isWhitespace_of_isNameChar {c : Char} (h : isNameChar c = true) :
    isWhitespace c = false := by
  rw [isNameChar, Bool.or_eq_true, beq_iff_eq] at h
  rcases h with halnum | rfl
  · change ((decide (c.val ≥ 65 ∧ c.val ≤ 90) ||
      (decide (c.val ≥ 97) && decide (c.val ≤ 122))) ||
        (decide (c.val ≥ 48) && decide (c.val ≤ 57))) = true at halnum
    simp only [Bool.or_eq_true, Bool.and_eq_true, decide_eq_true_eq] at halnum
    apply isWhitespace_of_graphic
    · rw [Char.le_def]
      change (33 : UInt32) ≤ c.val
      simp only [UInt32.le_iff_toNat_le] at halnum ⊢
      simp at halnum ⊢
      omega
    · rw [Char.le_def]
      change c.val ≤ (126 : UInt32)
      simp only [UInt32.le_iff_toNat_le] at halnum ⊢
      simp at halnum ⊢
      omega
  · decide

theorem isNameChar_of_isStateName {name : Text} (h : isStateName name = true) :
    ∀ c ∈ name, isNameChar c = true := by
  cases name with
  | nil => cases h
  | cons first rest =>
    rw [isStateName, Bool.and_eq_true, List.all_eq_true] at h
    intro c hc
    rcases List.mem_cons.mp hc with rfl | hrest
    · have hstart := h.1
      rw [isNameStart, Bool.or_eq_true] at hstart
      rw [isNameChar, Char.isAlphanum, Bool.or_eq_true, Bool.or_eq_true]
      rcases hstart with halpha | hunderscore
      · exact .inl (.inl halpha)
      · exact .inr hunderscore
    · exact h.2 c hrest

theorem isStateName_ne_nil {name : Text} (h : isStateName name = true) : name ≠ [] := by
  rintro rfl
  cases h

theorem isTrimmed_of_isStateName {name : Text} (h : isStateName name = true) :
    IsTrimmed name := by
  constructor
  · intro c hc
    exact isWhitespace_of_isNameChar (isNameChar_of_isStateName h c (List.mem_of_mem_head? hc))
  · intro c hc
    exact isWhitespace_of_isNameChar (isNameChar_of_isStateName h c (List.mem_of_getLast? hc))

theorem not_mem_of_isStateName {name : Text} {c : Char} (h : isStateName name = true)
    (hc : isNameChar c = false) : c ∉ name := by
  intro hmem
  rw [isNameChar_of_isStateName h c hmem] at hc
  cases hc

/-- White space around a word brings no character but white space. -/
theorem not_mem_of_padded {word text : Text} {c : Char} (h : Padded word text)
    (hword : c ∉ word) (hc : isWhitespace c = false) : c ∉ text := by
  obtain ⟨front, back, rfl, hfront, hback⟩ := h
  simp only [List.mem_append, not_or]
  refine ⟨⟨?_, hword⟩, ?_⟩
  · intro hmem
    rw [hfront c hmem] at hc
    cases hc
  · intro hmem
    rw [hback c hmem] at hc
    cases hc

/-- What `connect` accepts: one of three shapes. -/
theorem connect_eq_ok_iff (left right : Text) (event : Option Text) (statement : Statement) :
    connect left right event = .ok statement ↔
      (left = TERMINAL_MARK ∧ isStateName right = true ∧ event = none ∧
        statement = .initial right) ∨
      (isStateName left = true ∧ right = TERMINAL_MARK ∧ event = none ∧
        statement = .final left) ∨
      (isStateName left = true ∧ isStateName right = true ∧ ∃ label, event = some label ∧
        statement = .transition { source := left, target := right, event := label }) := by
  have hmark : isStateName TERMINAL_MARK = false := rfl
  have hnil : isStateName [] = false := rfl
  unfold connect
  split_ifs with hright hboth hleft hname hevent hfinal hname hevent hsource htarget
  · subst hright
    simp [hnil, TERMINAL_MARK]
  · rw [hboth.1, hboth.2]
    simp [hmark]
  · simp [hleft, hmark, hname]
  · simp [hleft, hmark, hevent]
  · simp only [Bool.not_eq_false] at hname
    simp only [not_not] at hevent
    simp [hleft, hmark, hname, hevent, eq_comm]
  · simp [hfinal, hmark, hname]
  · simp [hfinal, hmark, hevent]
  · simp only [Bool.not_eq_false] at hname
    simp only [not_not] at hevent
    simp [hfinal, hmark, hname, hevent, hleft, eq_comm]
  · simp [hleft, hsource]
  · simp [hfinal, hleft, htarget]
  · simp only [Bool.not_eq_false] at hsource htarget
    cases event with
    | none => simp [hleft, hfinal]
    | some label => simp [hsource, htarget, eq_comm]

/-- The cut at an arrow that stands behind a padded word without a dash. -/
theorem cutAt_arrow {word before after : Text} (h : Padded word before) (hword : '-' ∉ word) :
    cutAt (before ++ (ARROW ++ after)) ARROW = some (before, after) :=
  cutAt_append (not_mem_of_padded h hword (by decide))

theorem splitEvent_of_not_mem {rest : Text} (h : ':' ∉ rest) :
    splitEvent rest = .ok (rest, none) := by
  have hcut : cutAt rest [':'] = none := by
    rw [cutAt_eq_none_iff]
    intro hinfix
    obtain ⟨front, back, hrest⟩ := hinfix
    rw [← hrest] at h
    exact h (by simp)
  rw [splitEvent, hcut]

/-- A word between white space, with a label behind a colon, is cut at the colon. -/
theorem splitEvent_labelled {target event middle label : Text} (hmiddle : Padded target middle)
    (htarget : isStateName target = true) (hlabel : Padded event label) (hne : event ≠ [])
    (htrimmed : IsTrimmed event) :
    trim (middle ++ ([':'] ++ label)) ≠ [] ∧
      splitEvent (trim (middle ++ ([':'] ++ label))) = .ok (target, some event) := by
  obtain ⟨front, back, rfl, hfront, hback⟩ := hmiddle
  obtain ⟨labelFront, labelBack, rfl, hlabelFront, hlabelBack⟩ := hlabel
  have htargetNe := isStateName_ne_nil htarget
  have hinner : trim (front ++ target ++ back ++ ([':'] ++ (labelFront ++ event ++ labelBack))) =
      (target ++ back) ++ ([':'] ++ (labelFront ++ event)) := by
    apply trim_of_padded
    · constructor
      · intro c hc
        rw [List.append_assoc, List.head?_append_of_ne_nil _ htargetNe] at hc
        exact (isTrimmed_of_isStateName htarget).1 c hc
      · intro c hc
        rw [← List.append_assoc, ← List.append_assoc, List.getLast?_append_of_ne_nil _ hne] at hc
        exact htrimmed.2 c hc
    · refine ⟨front, labelBack, ?_, hfront, hlabelBack⟩
      simp only [List.append_assoc]
  have hcolon : ':' ∉ target ++ back := by
    have hpadded : Padded target (target ++ back) := ⟨[], back, rfl, by simp, hback⟩
    apply not_mem_of_padded hpadded
    · exact not_mem_of_isStateName htarget rfl
    · decide
  have htargetTrim : trim (target ++ back) = target :=
    trim_of_padded (isTrimmed_of_isStateName htarget) ⟨[], back, rfl, by simp, hback⟩
  have heventTrim : trim (labelFront ++ event) = event :=
    trim_of_padded htrimmed ⟨labelFront, [], by simp, hlabelFront, by simp⟩
  rw [hinner]
  constructor
  · simp
  · rw [splitEvent, cutAt_append hcolon]
    dsimp only
    rw [heventTrim, if_neg hne, htargetTrim]

theorem readStatement_of_reads {line : Text} {statement : Statement} (h : Reads line statement) :
    readStatement line = .ok statement := by
  have hmark : IsTrimmed TERMINAL_MARK := by decide
  cases h with
  | initial hbefore hafter hname =>
    rw [readStatement, cutAt_arrow hbefore (by decide)]
    dsimp only
    rw [trim_of_padded hmark hbefore, trim_of_padded (isTrimmed_of_isStateName hname) hafter,
      if_neg (by decide), if_neg (isStateName_ne_nil hname),
      splitEvent_of_not_mem (not_mem_of_isStateName hname rfl)]
    dsimp only
    rw [connect_eq_ok_iff]
    exact .inl ⟨rfl, hname, rfl, rfl⟩
  | final hbefore hafter hname =>
    rw [readStatement, cutAt_arrow hbefore (not_mem_of_isStateName hname rfl)]
    dsimp only
    rw [trim_of_padded hmark hafter, trim_of_padded (isTrimmed_of_isStateName hname) hbefore,
      if_neg (isStateName_ne_nil hname), if_neg (by decide), splitEvent_of_not_mem (by decide)]
    dsimp only
    rw [connect_eq_ok_iff]
    exact .inr (.inl ⟨hname, rfl, rfl, rfl⟩)
  | transition hbefore hsource hmiddle htarget hlabel hne htrimmed =>
    obtain ⟨hrest, hsplit⟩ := splitEvent_labelled hmiddle htarget hlabel hne htrimmed
    rw [readStatement, cutAt_arrow hbefore (not_mem_of_isStateName hsource rfl)]
    dsimp only
    rw [trim_of_padded (isTrimmed_of_isStateName hsource) hbefore,
      if_neg (isStateName_ne_nil hsource), if_neg hrest, hsplit]
    dsimp only
    rw [connect_eq_ok_iff]
    exact .inr (.inr ⟨hsource, htarget, _, rfl, rfl⟩)

theorem reads_of_readStatement {line : Text} {statement : Statement}
    (h : readStatement line = .ok statement) : Reads line statement := by
  unfold readStatement at h
  split at h
  · cases h
  next before after hcut =>
    have hline := append_of_cutAt hcut
    split_ifs at h with hleft hrest
    split at h
    · cases h
    next right event hsplit =>
      rw [connect_eq_ok_iff] at h
      unfold splitEvent at hsplit
      split at hsplit
      next hcolon =>
        cases hsplit
        rcases h with ⟨hmark, hname, -, rfl⟩ | ⟨hname, hmark, -, rfl⟩ | ⟨-, -, label, hlabel, -⟩
        · rw [← hline]
          exact .initial (hmark ▸ padded_trim before) (padded_trim after) hname
        · rw [← hline]
          exact .final (padded_trim before) (hmark ▸ padded_trim after) hname
        · cases hlabel
      next target label hcolon =>
        split_ifs at hsplit with hempty
        cases hsplit
        rcases h with ⟨-, -, hnone, -⟩ | ⟨-, -, hnone, -⟩ | ⟨hsource, htarget, text, htext, rfl⟩
        · cases hnone
        · cases hnone
        · cases htext
          obtain ⟨front, back, hafter, hfront, hback⟩ := padded_trim after
          have hparts := append_of_cutAt hcolon
          have hwhole : after = (front ++ target) ++ ([':'] ++ (label ++ back)) := by
            rw [hafter, ← hparts]
            simp only [List.append_assoc]
          rw [← hline, hwhole]
          refine .transition (padded_trim before) hsource ?_ htarget ?_ hempty
            (isTrimmed_trim label)
          · exact (padded_trim target).append_left hfront
          · exact (padded_trim label).append_right hback

theorem readStatement_eq_ok_iff (line : Text) (statement : Statement) :
    readStatement line = .ok statement ↔ Reads line statement :=
  ⟨reads_of_readStatement, readStatement_of_reads⟩

/-! ## States in mention order -/

theorem mem_recordState {states : List Text} {state other : Text} :
    other ∈ recordState states state ↔ other ∈ states ∨ other = state := by
  unfold recordState
  split
  next hmem =>
    constructor
    · exact .inl
    · rintro (hother | rfl)
      · exact hother
      · exact hmem
  · simp

/-- Recording what is mentioned, one after the other, gives the mention order. -/
theorem inMentionOrder_recordState (mentions : List Text) :
    InMentionOrder mentions (mentions.foldl recordState []) := by
  induction mentions using List.reverseRecOn with
  | nil => exact ⟨by simp, .nil⟩
  | append_singleton front last ih =>
    rw [List.foldl_concat]
    constructor
    · intro state
      rw [mem_recordState, ih.mem_iff, List.mem_append, List.mem_singleton]
    · have hfront : (front.foldl recordState []).Pairwise fun first second ↦
          (front ++ [last]).idxOf first < (front ++ [last]).idxOf second := by
        apply ih.ordered.imp_of_mem
        intro first second hfirst hsecond hlt
        rwa [List.idxOf_append_of_mem ((ih.mem_iff first).mp hfirst),
          List.idxOf_append_of_mem ((ih.mem_iff second).mp hsecond)]
      rw [recordState]
      split
      · exact hfront
      next hlast =>
        rw [ih.mem_iff] at hlast
        rw [List.pairwise_append]
        refine ⟨hfront, List.pairwise_singleton _ _, ?_⟩
        intro first hfirst second hsecond
        rw [ih.mem_iff] at hfirst
        rw [List.mem_singleton] at hsecond
        rw [hsecond, List.idxOf_append_of_mem hfirst, List.idxOf_append_of_notMem hlast]
        have hlt := List.idxOf_lt_length_of_mem hfirst
        omega

theorem InMentionOrder.nodup {mentions states : List Text} (h : InMentionOrder mentions states) :
    states.Nodup := by
  apply h.ordered.imp
  rintro first second hlt rfl
  exact absurd hlt (lt_irrefl _)

/-! ## The declared initial state -/

/-- The initial state that a line declares. -/
def declared (line : ℕ × Text) : Option Text :=
  match readStatement line.2 with
  | .ok (.initial state) => some state
  | _ => none

theorem declared_eq_some_iff (line : ℕ × Text) (state : Text) :
    declared line = some state ↔ Reads line.2 (.initial state) := by
  rw [← readStatement_eq_ok_iff, declared]
  constructor
  · intro h
    split at h
    next hread =>
      cases h
      exact hread
    · cases h
  · intro h
    rw [h]

theorem declared_eq_none_iff (line : ℕ × Text) :
    declared line = none ↔ ∀ state, ¬Reads line.2 (.initial state) := by
  rw [Option.eq_none_iff_forall_ne_some]
  simp only [ne_eq, declared_eq_some_iff]

theorem declared_eq_none_of_reads {line : ℕ × Text} {statement : Statement}
    (h : Reads line.2 statement) (hne : ∀ state, statement ≠ .initial state) :
    declared line = none := by
  rw [declared_eq_none_iff]
  intro state hstate
  have hread := readStatement_of_reads h
  rw [readStatement_of_reads hstate] at hread
  exact hne state (Except.ok.inj hread).symm

theorem declaresFirst_iff (lines : List (ℕ × Text)) (state : Text) :
    DeclaresFirst lines state ↔ lines.findSome? declared = some state := by
  rw [List.findSome?_eq_some_iff]
  constructor
  · rintro ⟨before, line, after, hlines, hline, hbefore⟩
    refine ⟨before, line, after, hlines, (declared_eq_some_iff line state).mpr hline, ?_⟩
    intro other hother
    rw [declared_eq_none_iff]
    intro named hnamed
    exact hbefore named ⟨other, hother, hnamed⟩
  · rintro ⟨before, line, after, hlines, hline, hbefore⟩
    refine ⟨before, line, after, hlines, (declared_eq_some_iff line state).mp hline, ?_⟩
    rintro named ⟨other, hother, hnamed⟩
    exact (declared_eq_none_iff other).mp (hbefore other hother) named hnamed

theorem not_declares_of_findSome?_eq_none {lines : List (ℕ × Text)}
    (h : lines.findSome? declared = none) (state : Text) : ¬Declares lines state := by
  rintro ⟨line, hline, hreads⟩
  rw [List.findSome?_eq_none_iff] at h
  exact (declared_eq_none_iff line).mp (h line hline) state hreads

/-- Where no line offends, the state declared first is the only one declared. -/
theorem declaresFirst_of_declares {lines : List (ℕ × Text)} {state : Text}
    (hclean : ∀ number, ¬OffendsAt lines number) (h : Declares lines state) :
    DeclaresFirst lines state := by
  obtain ⟨line, hline, hreads⟩ := h
  obtain ⟨before, after, rfl⟩ := List.append_of_mem hline
  cases hfirst : before.findSome? declared with
  | none =>
    exact ⟨before, line, after, rfl, hreads, not_declares_of_findSome?_eq_none hfirst⟩
  | some first =>
    have hsame : first = state := by
      by_contra hne
      exact hclean line.1 ⟨before, line, after, rfl, rfl,
        .inr ⟨first, state, (declaresFirst_iff _ _).mpr hfirst, hreads, hne⟩⟩
    rw [declaresFirst_iff, List.findSome?_append, hfirst, hsame]
    rfl

theorem offendsAt_concat_iff (lines : List (ℕ × Text)) (line : ℕ × Text) (number : ℕ) :
    OffendsAt (lines ++ [line]) number ↔
      OffendsAt lines number ∨ line.1 = number ∧ Offends lines line.2 := by
  constructor
  · rintro ⟨before, found, after, hlines, hnumber, hoffends⟩
    cases after using List.reverseRecOn with
    | nil =>
      obtain ⟨rfl, hline⟩ := List.append_inj' hlines rfl
      cases hline
      exact .inr ⟨hnumber, hoffends⟩
    | append_singleton rest last =>
      rw [← List.cons_append, ← List.append_assoc] at hlines
      obtain ⟨rfl, -⟩ := List.append_inj' hlines rfl
      exact .inl ⟨before, found, rest, rfl, hnumber, hoffends⟩
  · rintro (⟨before, found, after, rfl, hnumber, hoffends⟩ | ⟨hnumber, hoffends⟩)
    · exact ⟨before, found, after ++ [line], by simp, hnumber, hoffends⟩
    · exact ⟨lines, line, [], rfl, hnumber, hoffends⟩

/-! ## The loop -/

/-- What the loop has when it has gone through these lines. -/
structure Follows (lines : List (ℕ × Text)) (progress : Progress) : Prop where
  initial : progress.initial = lines.findSome? declared
  numbered : ∀ error ∈ progress.errors, error.line ≠ none
  reported : ∀ number, (∃ error ∈ progress.errors, error.line = some number) ↔
    OffendsAt lines number
  clean : progress.errors = [] → ∃ statements,
    List.Forall₂ (fun line statement ↦ Reads line.2 statement) lines statements ∧
    progress.statesOrder = (statements.flatMap Statement.mentions).foldl recordState [] ∧
    progress.transitions = statements.filterMap Statement.transition? ∧
    progress.finalOrder = (statements.filterMap Statement.final?).foldl recordState []

section

variable {lines : List (ℕ × Text)} {progress : Progress} {line : ℕ × Text}

/-- A step that reports an offending line. -/
theorem Follows.fail (h : Follows lines progress) (message : String)
    (hoffends : Offends lines line.2) (hdeclared : progress.initial.or (declared line) =
      progress.initial) : Follows (lines ++ [line]) (progress.fail line.1 message) where
  initial := by
    rw [List.findSome?_append, ← h.initial, List.findSome?_singleton, hdeclared]
    rfl
  numbered := by
    intro error herror
    rcases List.mem_append.mp herror with hold | hnew
    · exact h.numbered error hold
    · rw [List.mem_singleton.mp hnew]
      exact Option.some_ne_none _
  reported := by
    intro number
    rw [offendsAt_concat_iff, ← h.reported]
    constructor
    · rintro ⟨error, herror, hnumber⟩
      rcases List.mem_append.mp herror with hold | hnew
      · exact .inl ⟨error, hold, hnumber⟩
      · rw [List.mem_singleton.mp hnew] at hnumber
        exact .inr ⟨Option.some.inj hnumber, hoffends⟩
    · rintro (⟨error, herror, hnumber⟩ | ⟨hnumber, -⟩)
      · exact ⟨error, List.mem_append_left _ herror, hnumber⟩
      · exact ⟨_, List.mem_append_right _ List.mem_cons_self, congrArg some hnumber⟩
  clean := by
    intro hnone
    exact absurd hnone (List.append_ne_nil_of_right_ne_nil _ (List.cons_ne_nil _ _))

/-- A step that records what an unoffending line says. -/
theorem Follows.record {next : Progress} {statement : Statement} (h : Follows lines progress)
    (hreads : Reads line.2 statement) (hfine : ¬Offends lines line.2)
    (hinitial : next.initial = progress.initial.or (declared line))
    (herrors : next.errors = progress.errors)
    (hstates : next.statesOrder = statement.mentions.foldl recordState progress.statesOrder)
    (htransitions : next.transitions =
      progress.transitions ++ statement.transition?.toList)
    (hfinal : next.finalOrder = statement.final?.toList.foldl recordState progress.finalOrder) :
    Follows (lines ++ [line]) next where
  initial := by
    rw [hinitial, List.findSome?_append, ← h.initial, List.findSome?_singleton]
  numbered := by
    rw [herrors]
    exact h.numbered
  reported := by
    intro number
    rw [herrors, h.reported, offendsAt_concat_iff]
    constructor
    · exact .inl
    · rintro (hold | ⟨-, hoffends⟩)
      · exact hold
      · exact absurd hoffends hfine
  clean := by
    intro hnone
    obtain ⟨statements, hall, hold, holdTransitions, holdFinal⟩ := h.clean (herrors ▸ hnone)
    refine ⟨statements ++ [statement], ?_, ?_, ?_, ?_⟩
    · exact List.rel_append hall (.cons hreads .nil)
    · rw [hstates, hold, List.flatMap_append, List.foldl_append, List.flatMap_singleton]
    · rw [htransitions, holdTransitions, List.filterMap_append]
      cases statement <;> rfl
    · rw [hfinal, holdFinal, List.filterMap_append, List.foldl_append]
      cases statement <;> rfl

/-- Going through one line more. -/
theorem Follows.read (h : Follows lines progress) : Follows (lines ++ [line])
    (progress.read line) := by
  unfold Progress.read
  split
  next message hread =>
    have hnone : ∀ statement, ¬Reads line.2 statement := by
      intro statement hreads
      rw [readStatement_of_reads hreads] at hread
      cases hread
    apply h.fail message (.inl hnone)
    rw [(declared_eq_none_iff line).mpr fun state ↦ hnone _, Option.or_none]
  next statement hread =>
    have hreads := reads_of_readStatement hread
    have honly : ∀ other, Reads line.2 other → other = statement := by
      intro other hother
      rw [readStatement_of_reads hother] at hread
      exact Except.ok.inj hread
    cases statement with
    | initial state =>
      have hdeclared := (declared_eq_some_iff line state).mpr hreads
      rw [Progress.accept]
      split
      next first hfirst =>
        have hbefore : DeclaresFirst lines first := by
          rw [declaresFirst_iff, ← h.initial, hfirst]
        split
        next hsame =>
          apply h.record hreads
          · rintro (hnone | ⟨other, named, hother, hnamed, hne⟩)
            · exact hnone _ hreads
            · cases honly _ hnamed
              rw [declaresFirst_iff, ← h.initial, hfirst] at hother
              exact hne ((Option.some.inj hother).symm.trans hsame)
          · rw [hfirst]
            rfl
          · rfl
          · rfl
          · exact (List.append_nil _).symm
          · rfl
        next hne =>
          apply h.fail _ (.inr ⟨first, state, hbefore, hreads, hne⟩)
          rw [hfirst]
          rfl
      next hnone =>
        apply h.record hreads
        · rintro (hno | ⟨other, named, hother, -, -⟩)
          · exact hno _ hreads
          · rw [declaresFirst_iff, ← h.initial, hnone] at hother
            cases hother
        · rw [hnone, hdeclared]
          rfl
        · rfl
        · rfl
        · exact (List.append_nil _).symm
        · rfl
    | final source =>
      apply h.record hreads
      · rintro (hno | ⟨other, named, -, hnamed, -⟩)
        · exact hno _ hreads
        · cases honly _ hnamed
      · rw [declared_eq_none_of_reads hreads (by simp), Option.or_none]
        rfl
      · rfl
      · rfl
      · exact (List.append_nil _).symm
      · rfl
    | transition edge =>
      apply h.record hreads
      · rintro (hno | ⟨other, named, -, hnamed, -⟩)
        · exact hno _ hreads
        · cases honly _ hnamed
      · rw [declared_eq_none_of_reads hreads (by simp), Option.or_none]
        rfl
      · rfl
      · rfl
      · rfl
      · rfl

end

/-- The loop behind the header. -/
def Progress.begun : Progress := { Progress.start with headerConsumed := true }

theorem follows_foldl (lines : List (ℕ × Text)) :
    Follows lines (lines.foldl Progress.read .begun) := by
  induction lines using List.reverseRecOn with
  | nil =>
    refine ⟨rfl, by simp [Progress.begun, Progress.start], ?_, ?_⟩
    · intro number
      constructor
      · rintro ⟨error, herror, -⟩
        cases herror
      · rintro ⟨before, line, after, hlines, -⟩
        exact absurd hlines.symm (List.append_ne_nil_of_right_ne_nil _ (List.cons_ne_nil _ _))
    · intro _
      exact ⟨[], .nil, rfl, rfl, rfl⟩
  | append_singleton front last ih =>
    rw [List.foldl_concat]
    exact ih.read

theorem headerConsumed_read (progress : Progress) (line : ℕ × Text) :
    (progress.read line).headerConsumed = progress.headerConsumed := by
  unfold Progress.read
  split
  · rfl
  next statement _ =>
    cases statement with
    | initial state =>
      rw [Progress.accept]
      split
      · split <;> rfl
      · rfl
    | final source => rfl
    | transition edge => rfl

theorem foldl_step_of_headerConsumed (lines : List (ℕ × Text)) {progress : Progress}
    (hconsumed : progress.headerConsumed = true) (hlines : ∀ line ∈ lines, line.2 ≠ []) :
    lines.foldl Progress.step progress = lines.foldl Progress.read progress := by
  induction lines generalizing progress with
  | nil => rfl
  | cons line rest ih =>
    have hstep : progress.step line = progress.read line := by
      have hsame : { progress with headerConsumed := true } = progress := by
        cases progress
        cases hconsumed
        rfl
      rw [Progress.step, if_neg (hlines line List.mem_cons_self), if_neg (by simp [hconsumed]),
        hsame]
    rw [List.foldl_cons, List.foldl_cons, hstep]
    apply ih
    · rw [headerConsumed_read, hconsumed]
    · intro other hother
      exact hlines other (List.mem_cons_of_mem line hother)

theorem foldl_step_numberedLines (text : Text) (progress : Progress) :
    (numberedLines text).foldl Progress.step progress =
      (meaningfulLines text).foldl Progress.step progress := by
  rw [meaningfulLines, List.foldl_filter]
  congr 1
  funext progress line
  by_cases hblank : line.2 = []
  · simp [Progress.step, hblank]
  · simp [hblank]

/-- The parser goes through the body. -/
theorem parseMermaidStateDiagram_eq (text : Text) :
    parseMermaidStateDiagram text = ((body text).foldl Progress.read .begun).finish := by
  have hne : ∀ line ∈ meaningfulLines text, line.2 ≠ [] := by
    intro line hline
    exact of_decide_eq_true (List.mem_filter.mp hline).2
  rw [parseMermaidStateDiagram, foldl_step_numberedLines, body]
  cases hlines : meaningfulLines text with
  | nil => rfl
  | cons line rest =>
    rw [hlines] at hne
    have hline := hne line List.mem_cons_self
    have hrest : ∀ other ∈ rest, other.2 ≠ [] := by
      intro other hother
      exact hne other (List.mem_cons_of_mem line hother)
    dsimp only
    split
    next hheader =>
      have hstep : Progress.start.step line = .begun := by
        rw [Progress.step, if_neg hline, if_pos ⟨rfl, hheader⟩]
        rfl
      rw [List.foldl_cons, hstep, foldl_step_of_headerConsumed rest rfl hrest]
    next hheader =>
      have hstep : Progress.start.step line = Progress.begun.read line := by
        rw [Progress.step, if_neg hline, if_neg fun hboth ↦ hheader hboth.2]
        rfl
      rw [List.foldl_cons, List.foldl_cons, hstep, foldl_step_of_headerConsumed rest _ hrest]
      rw [headerConsumed_read]
      rfl

/-! ## The result -/

theorem finish_eq_ok_iff (progress : Progress) (machine : StateMachine) :
    progress.finish = .ok machine ↔ progress.errors = [] ∧ progress.statesOrder ≠ [] ∧
      progress.initial = some machine.initial ∧ machine.states = progress.statesOrder ∧
      machine.transitions = progress.transitions ∧
      machine.final = if progress.finalOrder = [] then none else some progress.finalOrder := by
  cases machine with
  | mk states initial transitions final =>
    unfold Progress.finish
    constructor
    · intro h
      dsimp only at h
      split at h
      next first herrors hinitial =>
        rw [List.append_eq_nil_iff, List.append_eq_nil_iff] at herrors
        cases h
        refine ⟨herrors.1.1, ?_, hinitial, rfl, rfl, rfl⟩
        intro hstates
        rw [if_pos hstates] at herrors
        exact absurd herrors.2 (List.cons_ne_nil _ _)
      · cases h
    · rintro ⟨herrors, hstates, hinitial, rfl, rfl, rfl⟩
      simp [herrors, hstates, hinitial]

/-- The errors that name a line are those of the loop. -/
theorem exists_mem_finish_error_iff {progress : Progress} {errors : List ParseError}
    (h : progress.finish = .error errors) (number : ℕ) :
    (∃ error ∈ errors, error.line = some number) ↔
      ∃ error ∈ progress.errors, error.line = some number := by
  unfold Progress.finish at h
  dsimp only at h
  split at h
  · cases h
  · cases h
    constructor
    · rintro ⟨error, herror, hnumber⟩
      rcases List.mem_append.mp herror with hfront | hstates
      · rcases List.mem_append.mp hfront with hloop | hinitial
        · exact ⟨error, hloop, hnumber⟩
        · split at hinitial
          · rw [List.mem_singleton.mp hinitial] at hnumber
            cases hnumber
          · cases hinitial
      · split at hstates
        · rw [List.mem_singleton.mp hstates] at hnumber
          cases hnumber
        · cases hstates
    · rintro ⟨error, herror, hnumber⟩
      exact ⟨error, List.mem_append_left _ (List.mem_append_left _ herror), hnumber⟩

theorem mem_of_reads {lines : List (ℕ × Text)} {statements : List Statement} {line : ℕ × Text}
    {statement : Statement}
    (h : List.Forall₂ (fun line statement ↦ Reads line.2 statement) lines statements)
    (hline : line ∈ lines) (hreads : Reads line.2 statement) : statement ∈ statements := by
  induction h with
  | nil => cases hline
  | cons hfirst _ ih =>
    rcases List.mem_cons.mp hline with rfl | hrest
    · have hsame := readStatement_of_reads hfirst
      rw [readStatement_of_reads hreads] at hsame
      rw [Except.ok.inj hsame]
      exact List.mem_cons_self
    · exact List.mem_cons_of_mem _ (ih hrest)

/-- Where nothing is reported and an initial state is declared, the text is accepted. -/
theorem exists_finish_eq_ok_iff {lines : List (ℕ × Text)} {progress : Progress}
    (h : Follows lines progress) :
    (∃ machine, progress.finish = .ok machine) ↔
      (∀ number, ¬OffendsAt lines number) ∧ ∃ state, DeclaresFirst lines state := by
  constructor
  · rintro ⟨machine, hmachine⟩
    obtain ⟨herrors, -, hinitial, -⟩ := (finish_eq_ok_iff _ _).mp hmachine
    constructor
    · intro number
      rw [← h.reported, herrors]
      rintro ⟨error, herror, -⟩
      cases herror
    · rw [h.initial] at hinitial
      exact ⟨machine.initial, (declaresFirst_iff _ _).mpr hinitial⟩
  · rintro ⟨hclean, state, hstate⟩
    have herrors : progress.errors = [] := by
      rw [List.eq_nil_iff_forall_not_mem]
      intro error herror
      obtain ⟨number, hnumber⟩ := Option.ne_none_iff_exists'.mp (h.numbered error herror)
      exact hclean number ((h.reported number).mp ⟨error, herror, hnumber⟩)
    have hinitial : progress.initial = some state := by
      rw [h.initial, (declaresFirst_iff _ _).mp hstate]
    obtain ⟨statements, hall, hstates, -⟩ := h.clean herrors
    have hmem : state ∈ progress.statesOrder := by
      obtain ⟨before, line, after, hlines, hreads, -⟩ := hstate
      have hline : line ∈ lines := by
        rw [hlines]
        exact List.mem_append_right _ List.mem_cons_self
      rw [hstates, (inMentionOrder_recordState _).mem_iff, List.mem_flatMap]
      exact ⟨.initial state, mem_of_reads hall hline hreads, List.mem_cons_self⟩
    let machine : StateMachine :=
      { states := progress.statesOrder
        initial := state
        transitions := progress.transitions
        final := if progress.finalOrder = [] then none else some progress.finalOrder }
    refine ⟨machine, (finish_eq_ok_iff progress machine).mpr ?_⟩
    exact ⟨herrors, List.ne_nil_of_mem hmem, hinitial, rfl, rfl, rfl⟩

/-- No line offends exactly when every line is in the grammar and the declarations agree. -/
theorem forall_not_offendsAt_iff (lines : List (ℕ × Text)) :
    (∀ number, ¬OffendsAt lines number) ↔
      (∀ line ∈ lines, ∃ statement, Reads line.2 statement) ∧
        ∀ first second, Declares lines first → Declares lines second → first = second := by
  constructor
  · intro hclean
    constructor
    · intro line hline
      by_contra hnone
      push Not at hnone
      obtain ⟨before, after, hlines⟩ := List.append_of_mem hline
      exact hclean line.1 ⟨before, line, after, hlines, rfl, .inl hnone⟩
    · intro first second hfirst hsecond
      have hone := declaresFirst_of_declares hclean hfirst
      have htwo := declaresFirst_of_declares hclean hsecond
      rw [declaresFirst_iff] at hone htwo
      rw [hone] at htwo
      exact Option.some.inj htwo
  · rintro ⟨hall, hagree⟩ number ⟨before, line, after, rfl, -, hoffends⟩
    have hline : line ∈ before ++ line :: after := List.mem_append_right _ List.mem_cons_self
    rcases hoffends with hnone | ⟨first, state, hfirst, hreads, hne⟩
    · obtain ⟨statement, hstatement⟩ := hall line hline
      exact hnone statement hstatement
    · obtain ⟨front, declaring, rest, rfl, hdeclaring, -⟩ := hfirst
      exact hne (hagree first state ⟨declaring, by simp, hdeclaring⟩ ⟨line, hline, hreads⟩)

theorem declares_of_declaresFirst {lines : List (ℕ × Text)} {state : Text}
    (h : DeclaresFirst lines state) : Declares lines state := by
  obtain ⟨before, line, after, rfl, hreads, -⟩ := h
  exact ⟨line, List.mem_append_right _ List.mem_cons_self, hreads⟩

/-- What the accepted machine has. -/
theorem describes_of_finish {lines : List (ℕ × Text)} {progress : Progress}
    {machine : StateMachine} (h : Follows lines progress) (hok : progress.finish = .ok machine) :
    ∃ statements, List.Forall₂ (fun line statement ↦ Reads line.2 statement) lines statements ∧
      Describes statements machine := by
  obtain ⟨herrors, -, hinitial, hstates, htransitions, hfinal⟩ := (finish_eq_ok_iff _ _).mp hok
  obtain ⟨statements, hall, hsameStates, hsameTransitions, hsameFinal⟩ := h.clean herrors
  refine ⟨statements, hall, ?_, ?_, ?_, ?_, ?_⟩
  · rw [h.initial, ← declaresFirst_iff] at hinitial
    obtain ⟨line, hline, hreads⟩ := declares_of_declaresFirst hinitial
    exact mem_of_reads hall hline hreads
  · rw [hstates, hsameStates]
    exact inMentionOrder_recordState _
  · rw [htransitions, hsameTransitions]
  · have hdefault : machine.final.getD [] = progress.finalOrder := by
      rw [hfinal]
      split
      next hnil => exact hnil.symm
      · rfl
    rw [hdefault, hsameFinal]
    exact inMentionOrder_recordState _
  · have horder := inMentionOrder_recordState (statements.filterMap Statement.final?)
    rw [hfinal, hsameFinal]
    constructor
    · intro hnone
      rw [List.eq_nil_iff_forall_not_mem]
      intro state hstate
      rw [← horder.mem_iff] at hstate
      rw [if_neg (List.ne_nil_of_mem hstate)] at hnone
      cases hnone
    · intro hnil
      rw [hnil]
      rfl

/-- The states of a described machine. -/
theorem Describes.mem_states {statements : List Statement} {machine : StateMachine}
    (h : Describes statements machine) : machine.initial ∈ machine.states ∧
      ∀ transition ∈ machine.transitions,
        transition.source ∈ machine.states ∧ transition.target ∈ machine.states := by
  simp only [h.states.mem_iff, List.mem_flatMap]
  constructor
  · exact ⟨_, h.initial, List.mem_cons_self⟩
  · intro transition htransition
    rw [h.transitions, List.mem_filterMap] at htransition
    obtain ⟨statement, hmem, hsome⟩ := htransition
    cases statement with
    | transition edge =>
      cases hsome
      exact ⟨⟨_, hmem, List.mem_cons_self⟩, ⟨_, hmem, List.mem_cons_of_mem _ List.mem_cons_self⟩⟩
    | initial target => cases hsome
    | final source => cases hsome

end Flockctl.StateMachines
