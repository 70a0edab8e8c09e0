import Flockctl.Chats.Streaming
import Mathlib.Data.List.Infix

/-!
# Rows that persist a turn

What the rows of a turn say about its events. Rows and events are compared by their marks, which are
the units of text and the calls in their order, and by their tools, which are the calls and results
in their order. A list that is cut at a call by its marks is cut there by its tools too.
-/

namespace Flockctl.Chats.Streaming

variable {Call Result : Type}

def SessionEvent.streamed : SessionEvent Call Result → Text
  | .text chunk => chunk
  | _ => []

def SessionEvent.frame : SessionEvent Call Result → List (SseEvent Call Result)
  | .text chunk => [.content chunk]
  | .thinking chunk => [.thinking chunk]
  | .tool_call call => [.tool_call call]
  | .tool_result result => [.tool_result result]
  | .turn_end => []

/-- The units of text and the calls. -/
def SessionEvent.marks : SessionEvent Call Result → List (UInt16 ⊕ Call)
  | .text chunk => chunk.map .inl
  | .tool_call call => [.inr call]
  | _ => []

def SessionEvent.tools : SessionEvent Call Result → List (Call ⊕ Result)
  | .tool_call call => [.inl call]
  | .tool_result result => [.inr result]
  | _ => []

def TurnRow.saved : TurnRow Call Result → Text
  | .assistant content => content
  | _ => []

def TurnRow.marks : TurnRow Call Result → List (UInt16 ⊕ Call)
  | .assistant content => content.map .inl
  | .call tool => [.inr tool]
  | _ => []

def TurnRow.tools : TurnRow Call Result → List (Call ⊕ Result)
  | .call tool => [.inl tool]
  | .result tool => [.inr tool]
  | _ => []

/-- The texts of all events. -/
def streamedText (events : List (SessionEvent Call Result)) : Text :=
  events.flatMap SessionEvent.streamed

/-- The texts of all assistant rows. -/
def savedText (rows : List (TurnRow Call Result)) : Text := rows.flatMap TurnRow.saved

/-- The events that a client is to see. -/
def frames (events : List (SessionEvent Call Result)) : List (SseEvent Call Result) :=
  events.flatMap SessionEvent.frame

/-- The rows of a turn are its events: the text, the tool rows in their order, and each tool row
between the text before its call and the text after. -/
structure Persisted (events : List (SessionEvent Call Result)) (rows : List (TurnRow Call Result)) :
    Prop where
  text : savedText rows = streamedText events
  tools : rows.flatMap TurnRow.tools = events.flatMap SessionEvent.tools
  calls : ∀ before call after, rows = before ++ .call call :: after →
    ∃ earlier later, events = earlier ++ .tool_call call :: later ∧
      before.flatMap TurnRow.tools = earlier.flatMap SessionEvent.tools ∧
      savedText before = streamedText earlier ∧ savedText after = streamedText later
  results : ∀ before result after, rows = before ++ .result result :: after →
    ∃ earlier later, events = earlier ++ .tool_result result :: later ∧
      before.flatMap TurnRow.tools = earlier.flatMap SessionEvent.tools ∧
      ∀ first call rest, earlier = first ++ .tool_call call :: rest →
        streamedText first <+: savedText before ∧ savedText after <:+ streamedText (rest ++ later)
  nonempty : .assistant [] ∈ rows → streamedText events = []

section Cuts

variable {Item Mark : Type} {marks : Item → List Mark}

/-- A list that a flattened one has a single element of has the element it comes from. -/
theorem exists_split (mark : Mark) {items : List Item} {left right : List Mark}
    (h : items.flatMap marks = left ++ mark :: right)
    (hsingle : ∀ item, mark ∈ marks item → marks item = [mark]) :
    ∃ before item after, items = before ++ item :: after ∧ marks item = [mark] ∧
      before.flatMap marks = left ∧ after.flatMap marks = right := by
  induction items generalizing left with
  | nil => simp at h
  | cons item rest ih =>
    rw [List.flatMap_cons] at h
    rcases List.append_eq_append_iff.mp h with ⟨first, hleft, hrest⟩ | ⟨first, hitem, hright⟩
    · obtain ⟨before, found, after, hrows, hfound, hbefore, hafter⟩ := ih hrest
      refine ⟨item :: before, found, after, ?_, hfound, ?_, hafter⟩
      · rw [hrows, List.cons_append]
      · rw [List.flatMap_cons, hbefore, hleft]
    · cases first with
      | nil =>
        rw [List.append_nil] at hitem
        have hrest : rest.flatMap marks = [] ++ mark :: right := hright.symm
        obtain ⟨before, found, after, hrows, hfound, hbefore, hafter⟩ := ih hrest
        refine ⟨item :: before, found, after, ?_, hfound, ?_, hafter⟩
        · rw [hrows, List.cons_append]
        · rw [List.flatMap_cons, hbefore, hitem, List.append_nil]
      | cons head first =>
        obtain ⟨rfl, hrest⟩ := List.cons_eq_cons.mp hright
        have hmarks : marks item = [mark] :=
          hsingle item (hitem ▸ List.mem_append_right left List.mem_cons_self)
        have hnil : left = [] ∧ first = [] := by
          rw [hmarks] at hitem
          have hlength := congrArg List.length hitem
          simp only [List.length_append, List.length_cons, List.length_nil] at hlength
          exact ⟨List.eq_nil_of_length_eq_zero (by omega), List.eq_nil_of_length_eq_zero (by omega)⟩
        refine ⟨[], item, rest, rfl, hmarks, ?_, ?_⟩
        · rw [hnil.1, List.flatMap_nil]
        · rw [hnil.2] at hrest
          exact hrest.symm

/-- Two cuts of a list at marked elements are one cut if as many marks stand before both. -/
theorem cut_unique (marks : Item → List Mark) {before before' after after' : List Item}
    {item item' : Item} (h : before ++ item :: after = before' ++ item' :: after')
    (hitem : marks item ≠ []) (hitem' : marks item' ≠ [])
    (hmarks : (before.flatMap marks).length = (before'.flatMap marks).length) :
    before = before' ∧ item = item' ∧ after = after' := by
  -- what one cut has before it and the other has not starts with the marked element of the other
  have hsame : before = before' := by
    rcases List.append_eq_append_iff.mp h with ⟨more, hbefore, hrest⟩ | ⟨more, hbefore, hrest⟩
    · cases more with
      | nil => rw [hbefore, List.append_nil]
      | cons head more =>
        obtain ⟨rfl, -⟩ := List.cons_eq_cons.mp hrest
        have hpos := List.length_pos_iff.mpr hitem
        rw [hbefore, List.flatMap_append, List.length_append, List.flatMap_cons,
          List.length_append] at hmarks
        omega
    · cases more with
      | nil => rw [hbefore, List.append_nil]
      | cons head more =>
        obtain ⟨rfl, -⟩ := List.cons_eq_cons.mp hrest
        have hpos := List.length_pos_iff.mpr hitem'
        rw [hbefore, List.flatMap_append, List.length_append, List.flatMap_cons,
          List.length_append] at hmarks
        omega
  subst hsame
  have hrest := List.cons_eq_cons.mp (List.append_cancel_left h)
  exact ⟨rfl, hrest.1, hrest.2⟩

end Cuts

/-- The texts of marks. -/
def textOfMarks (marks : List (UInt16 ⊕ Call)) : Text := marks.filterMap Sum.getLeft?

/-- The calls of tools. -/
def callsOfTools (tools : List (Call ⊕ Result)) : List Call := tools.filterMap Sum.getLeft?

theorem textOfMarks_append (left right : List (UInt16 ⊕ Call)) :
    textOfMarks (left ++ right) = textOfMarks left ++ textOfMarks right := List.filterMap_append

@[simp] theorem textOfMarks_map_inl (text : Text) :
    textOfMarks (text.map (.inl : UInt16 → UInt16 ⊕ Call)) = text := by
  induction text with
  | nil => rfl
  | cons unit text ih => exact congrArg (unit :: ·) ih

@[simp] theorem calls_map_inl (text : Text) :
    (text.map (.inl : UInt16 → UInt16 ⊕ Call)).filterMap Sum.getRight? = [] := by
  induction text with
  | nil => rfl
  | cons unit text ih => exact ih

theorem textOfMarks_events (events : List (SessionEvent Call Result)) :
    textOfMarks (events.flatMap SessionEvent.marks) = streamedText events := by
  induction events with
  | nil => rfl
  | cons event events ih =>
    rw [List.flatMap_cons, textOfMarks_append, ih, streamedText, streamedText, List.flatMap_cons]
    congr 1
    cases event with
    | text chunk => exact textOfMarks_map_inl chunk
    | thinking | tool_call | tool_result | turn_end => rfl

theorem textOfMarks_rows (rows : List (TurnRow Call Result)) :
    textOfMarks (rows.flatMap TurnRow.marks) = savedText rows := by
  induction rows with
  | nil => rfl
  | cons row rows ih =>
    rw [List.flatMap_cons, textOfMarks_append, ih, savedText, savedText, List.flatMap_cons]
    congr 1
    cases row with
    | assistant content => exact textOfMarks_map_inl content
    | thinking | call | result => rfl

theorem calls_of_events (events : List (SessionEvent Call Result)) :
    callsOfTools (events.flatMap SessionEvent.tools) =
      (events.flatMap SessionEvent.marks).filterMap Sum.getRight? := by
  induction events with
  | nil => rfl
  | cons event events ih =>
    rw [List.flatMap_cons, List.flatMap_cons, callsOfTools, List.filterMap_append,
      List.filterMap_append, ← ih]
    congr 1
    cases event with
    | text chunk => exact (calls_map_inl chunk).symm
    | thinking | tool_call | tool_result | turn_end => rfl

theorem calls_of_rows (rows : List (TurnRow Call Result)) :
    callsOfTools (rows.flatMap TurnRow.tools) =
      (rows.flatMap TurnRow.marks).filterMap Sum.getRight? := by
  induction rows with
  | nil => rfl
  | cons row rows ih =>
    rw [List.flatMap_cons, List.flatMap_cons, callsOfTools, List.filterMap_append,
      List.filterMap_append, ← ih]
    congr 1
    cases row with
    | assistant content => exact (calls_map_inl content).symm
    | thinking | call | result => rfl

theorem streamedText_append (left right : List (SessionEvent Call Result)) :
    streamedText (left ++ right) = streamedText left ++ streamedText right := List.flatMap_append

theorem savedText_append (left right : List (TurnRow Call Result)) :
    savedText (left ++ right) = savedText left ++ savedText right := List.flatMap_append

/-- An event that has the mark of a call is the call. -/
theorem eq_tool_call_of_mem {event : SessionEvent Call Result} {call : Call}
    (h : .inr call ∈ event.marks) : event = .tool_call call := by
  cases event with
  | text chunk =>
    obtain ⟨unit, -, hunit⟩ := List.mem_map.mp h
    cases hunit
  | tool_call other =>
    cases List.mem_singleton.mp h
    rfl
  | thinking | tool_result | turn_end => cases h

theorem eq_tool_result_of_mem {event : SessionEvent Call Result} {result : Result}
    (h : .inr result ∈ event.tools) : event = .tool_result result := by
  cases event with
  | tool_result other =>
    cases List.mem_singleton.mp h
    rfl
  | tool_call other => cases List.mem_singleton.mp h
  | text | thinking | turn_end => cases h

theorem eq_call_of_mem {row : TurnRow Call Result} {call : Call} (h : .inl call ∈ row.tools) :
    row = .call call := by
  cases row with
  | call other =>
    cases List.mem_singleton.mp h
    rfl
  | result other => cases List.mem_singleton.mp h
  | assistant | thinking => cases h

section Cut

variable {events : List (SessionEvent Call Result)} {rows : List (TurnRow Call Result)}
  (hmarks : rows.flatMap TurnRow.marks = events.flatMap SessionEvent.marks)
  (htools : rows.flatMap TurnRow.tools = events.flatMap SessionEvent.tools)

include hmarks htools

/-- The row of a call cuts the rows where the call cuts the events. -/
theorem exists_call {before after : List (TurnRow Call Result)} {call : Call}
    (hrows : rows = before ++ .call call :: after) :
    ∃ earlier later, events = earlier ++ .tool_call call :: later ∧
      before.flatMap TurnRow.tools = earlier.flatMap SessionEvent.tools ∧
      savedText before = streamedText earlier ∧ savedText after = streamedText later := by
  subst hrows
  rw [List.flatMap_append, List.flatMap_cons] at hmarks htools
  obtain ⟨earlier, event, later, hevents, hevent, hearlier, hlater⟩ :=
    exists_split (Sum.inr call) hmarks.symm
      fun event hmem ↦ by rw [eq_tool_call_of_mem hmem]; rfl
  obtain rfl : event = .tool_call call :=
    eq_tool_call_of_mem (hevent ▸ List.mem_singleton_self _)
  -- by its marks the cut has as many calls before it, which places it among the tools
  have hcalls : callsOfTools (before.flatMap TurnRow.tools) =
      callsOfTools (earlier.flatMap SessionEvent.tools) := by
    rw [calls_of_rows, calls_of_events, hearlier]
  subst hevents
  rw [List.flatMap_append, List.flatMap_cons] at htools
  have hlength : ((before.flatMap TurnRow.tools).flatMap fun tool ↦ tool.getLeft?.toList).length =
      ((earlier.flatMap SessionEvent.tools).flatMap fun tool ↦ tool.getLeft?.toList).length := by
    rw [← List.filterMap_eq_flatMap_toList, ← List.filterMap_eq_flatMap_toList]
    exact congrArg List.length hcalls
  have hcut := cut_unique _ htools (List.cons_ne_nil _ _) (List.cons_ne_nil _ _) hlength
  refine ⟨earlier, later, rfl, hcut.1, ?_, ?_⟩
  · rw [← textOfMarks_rows, ← textOfMarks_events, hearlier]
  · rw [← textOfMarks_rows, ← textOfMarks_events, hlater]
    rfl

/-- The row of a result comes after the text before each call that the result comes after, and
before later text only. -/
theorem exists_result {before after : List (TurnRow Call Result)} {result : Result}
    (hrows : rows = before ++ .result result :: after) :
    ∃ earlier later, events = earlier ++ .tool_result result :: later ∧
      before.flatMap TurnRow.tools = earlier.flatMap SessionEvent.tools ∧
      ∀ first call rest, earlier = first ++ .tool_call call :: rest →
        streamedText first <+: savedText before ∧
          savedText after <:+ streamedText (rest ++ later) := by
  have hcut := htools
  rw [hrows, List.flatMap_append, List.flatMap_cons] at hcut
  obtain ⟨earlier, event, later, hevents, hevent, hearlier, -⟩ :=
    exists_split (Sum.inr result) hcut.symm
      fun event hmem ↦ by rw [eq_tool_result_of_mem hmem]; rfl
  obtain rfl : event = .tool_result result :=
    eq_tool_result_of_mem (hevent ▸ List.mem_singleton_self _)
  refine ⟨earlier, later, hevents, hearlier.symm, fun first call rest hfirst ↦ ?_⟩
  -- the row of the call
  have hbefore : before.flatMap TurnRow.tools =
      first.flatMap SessionEvent.tools ++ .inl call :: rest.flatMap SessionEvent.tools := by
    rw [← hearlier, hfirst, List.flatMap_append, List.flatMap_cons]
    rfl
  obtain ⟨upper, row, lower, hsplit, hrow, hupper, -⟩ :=
    exists_split (Sum.inl call) hbefore fun row hmem ↦ by rw [eq_call_of_mem hmem]; rfl
  obtain rfl : row = .call call := eq_call_of_mem (hrow ▸ List.mem_singleton_self _)
  have hsplitRows : rows = upper ++ .call call :: (lower ++ .result result :: after) := by
    rw [hrows, hsplit, List.append_assoc, List.cons_append]
  obtain ⟨head, tail, hhead, hheadTools, hheadText, htailText⟩ :=
    exists_call hmarks htools hsplitRows
  -- the call of that row is the call of the events
  have hcuts : head ++ .tool_call call :: tail =
      first ++ .tool_call call :: (rest ++ .tool_result result :: later) := by
    rw [← hhead, hevents, hfirst, List.append_assoc, List.cons_append]
  have hsame := cut_unique SessionEvent.tools hcuts (List.cons_ne_nil _ _) (List.cons_ne_nil _ _)
    (by rw [← hheadTools, hupper])
  constructor
  · rw [hsplit, savedText_append, hheadText, hsame.1]
    exact List.prefix_append _ _
  · have htext : streamedText tail = streamedText (rest ++ later) := by
      rw [hsame.2.2, streamedText_append, streamedText_append]
      rfl
    rw [← htext, ← htailText, savedText_append]
    exact List.suffix_append_of_suffix (List.suffix_refl _)

/-- Rows with the marks and tools of the events persist them. -/
theorem persisted_of_marks (hempty : .assistant [] ∈ rows → streamedText events = []) :
    Persisted events rows where
  text := by rw [← textOfMarks_rows, ← textOfMarks_events, hmarks]
  tools := htools
  calls _ _ _ := exists_call hmarks htools
  results _ _ _ := exists_result hmarks htools
  nonempty := hempty

end Cut

end Flockctl.Chats.Streaming
