import Flockctl.Chats.StreamedRows

/-!
# Flushes

Until a turn ends, its rows and the text that has been accumulated are together what the session has
streamed. A tool call flushes before its own row is inserted, so no text that was streamed before a
call comes after the row of the call, and a flush of nothing inserts no row.
-/

namespace Flockctl.Chats.Streaming

variable {Call Result : Type}

namespace BoundedStringAccumulator

/-- The length that is kept is that of the text. -/
def Counted (acc : BoundedStringAccumulator) : Prop := acc.totalLen = acc.text.length

theorem counted_empty : Counted {} := rfl

variable {acc : BoundedStringAccumulator} {chunk : Text}

/-- Below the bound a chunk is added to the text. -/
theorem text_append (hacc : acc.Counted)
    (hbound : acc.text.length + chunk.length ≤ MAX_CHAT_STREAM_BYTES) :
    (acc.append chunk).text = acc.text ++ chunk := by
  unfold append
  split
  · next hnil => rw [List.eq_nil_of_length_eq_zero hnil, List.append_nil]
  · have hsmall : ¬MAX_CHAT_STREAM_BYTES < acc.totalLen + chunk.length := by
      rw [hacc]
      omega
    simp only [if_neg hsmall, text, List.flatten_append, List.flatten_singleton]

theorem counted_append (hacc : acc.Counted) : (acc.append chunk).Counted := by
  unfold append
  split
  · exact hacc
  · dsimp only
    split
    · simp only [Counted, text, List.flatten_singleton]
    · simp only [Counted, text, List.flatten_append, List.flatten_singleton, List.length_append]
      rw [hacc, text]

end BoundedStringAccumulator

namespace Turn

variable {s t : Turn Call Result}

/-- The loop and the waker change nothing of what has been accumulated and saved. -/
structure SameRows (s t : Turn Call Result) : Prop where
  rows : t.rows = s.rows
  pending : t.pendingTextAcc = s.pendingTextAcc
  last : t.lastAssistantRowId = s.lastAssistantRowId

/-- The flushes change nothing of the queue and the loop. -/
structure SameLoop (s t : Turn Call Result) : Prop where
  eventQueue : t.eventQueue = s.eventQueue
  head : t.head = s.head
  resolveWait : t.resolveWait = s.resolveWait
  runFinished : t.runFinished = s.runFinished
  clientDisconnected : t.clientDisconnected = s.clientDisconnected
  point : t.point = s.point
  written : t.written = s.written

theorem SameRows.refl (s : Turn Call Result) : SameRows s s := ⟨rfl, rfl, rfl⟩

theorem SameRows.trans {u : Turn Call Result} (hst : SameRows s t) (htu : SameRows t u) :
    SameRows s u :=
  ⟨htu.rows.trans hst.rows, htu.pending.trans hst.pending, htu.last.trans hst.last⟩

theorem SameLoop.trans {u : Turn Call Result} (hst : SameLoop s t) (htu : SameLoop t u) :
    SameLoop s u where
  eventQueue := htu.eventQueue.trans hst.eventQueue
  head := htu.head.trans hst.head
  resolveWait := htu.resolveWait.trans hst.resolveWait
  runFinished := htu.runFinished.trans hst.runFinished
  clientDisconnected := htu.clientDisconnected.trans hst.clientDisconnected
  point := htu.point.trans hst.point
  written := htu.written.trans hst.written

theorem sameRows_wakeWaiter (s : Turn Call Result) : SameRows s s.wakeWaiter := by
  unfold wakeWaiter
  split
  · exact ⟨rfl, rfl, rfl⟩
  · exact .refl s

theorem sameRows_push (s : Turn Call Result) (event : SseEvent Call Result) :
    SameRows s (s.push event) :=
  have hwake := sameRows_wakeWaiter { s with eventQueue := s.eventQueue ++ [event] }
  ⟨hwake.rows, hwake.pending, hwake.last⟩

theorem sameRows_settle (s : Turn Call Result) : SameRows s s.settle :=
  have hwake := sameRows_wakeWaiter { s with runFinished := true }
  ⟨hwake.rows, hwake.pending, hwake.last⟩

theorem sameRows_resetQueue (s : Turn Call Result) : SameRows s s.resetQueue := by
  unfold resetQueue
  split
  · exact ⟨rfl, rfl, rfl⟩
  · exact .refl s

theorem sameRows_afterDrain (s : Turn Call Result) : SameRows s s.afterDrain := by
  have hafter : SameRows s.resetQueue s.afterDrain := by
    unfold afterDrain
    dsimp only
    split
    · exact ⟨rfl, rfl, rfl⟩
    · split <;> exact ⟨rfl, rfl, rfl⟩
  exact (sameRows_resetQueue s).trans hafter

theorem sameRows_drain (s : Turn Call Result) : SameRows s s.drain := by
  unfold drain
  split
  · exact ⟨rfl, rfl, rfl⟩
  · exact sameRows_afterDrain s

theorem sameRows_drainRest (s : Turn Call Result) : SameRows s s.drainRest := by
  unfold drainRest
  split
  · exact ⟨rfl, rfl, rfl⟩
  · split <;> exact ⟨rfl, rfl, rfl⟩

theorem sameLoop_insertRow (s : Turn Call Result) (row : TurnRow Call Result) :
    SameLoop s (s.insertRow row) := ⟨rfl, rfl, rfl, rfl, rfl, rfl, rfl⟩

theorem sameLoop_flushThinking (s : Turn Call Result) : SameLoop s s.flushThinking := by
  unfold flushThinking
  split <;> exact ⟨rfl, rfl, rfl, rfl, rfl, rfl, rfl⟩

theorem sameLoop_flushText (s : Turn Call Result) : SameLoop s s.flushText := by
  unfold flushText
  split <;> exact ⟨rfl, rfl, rfl, rfl, rfl, rfl, rfl⟩

theorem sameLoop_flushPending (s : Turn Call Result) : SameLoop s s.flushPending :=
  (sameLoop_flushThinking s).trans (sameLoop_flushText s.flushThinking)

theorem sameLoop_insertPlaceholder (s : Turn Call Result) : SameLoop s s.insertPlaceholder := by
  unfold insertPlaceholder
  split <;> exact ⟨rfl, rfl, rfl, rfl, rfl, rfl, rfl⟩

/-- All that the end of a turn changes of the loop is where it is. -/
theorem sameLoop_finish (s : Turn Call Result) (rateLimited : Bool) :
    SameLoop { s with point := .ended } (s.finish rateLimited) := by
  have hflushed : SameLoop s (if rateLimited then s.flushPending else s) := by
    split
    · exact sameLoop_flushPending s
    · exact ⟨rfl, rfl, rfl, rfl, rfl, rfl, rfl⟩
  have hsame := (hflushed.trans (sameLoop_flushPending _)).trans (sameLoop_insertPlaceholder _)
  exact ⟨hsame.eventQueue, hsame.head, hsame.resolveWait, hsame.runFinished,
    hsame.clientDisconnected, rfl, hsame.written⟩

end Turn

/-- Until the turn ends, its rows and what has been accumulated are its events. -/
structure Accumulated (events : List (SessionEvent Call Result)) (s : Turn Call Result) : Prop where
  marks : s.rows.flatMap TurnRow.marks ++ s.pendingTextAcc.text.map .inl =
    events.flatMap SessionEvent.marks
  tools : s.rows.flatMap TurnRow.tools = events.flatMap SessionEvent.tools
  counted : s.pendingTextAcc.Counted
  nonempty : .assistant [] ∉ s.rows
  last : s.lastAssistantRowId = none → ∀ content, .assistant content ∉ s.rows

namespace Accumulated

open Turn

variable {events : List (SessionEvent Call Result)} {s t : Turn Call Result}

theorem initial : Accumulated ([] : List (SessionEvent Call Result)) {} where
  marks := rfl
  tools := rfl
  counted := rfl
  nonempty := List.not_mem_nil
  last _ _ := List.not_mem_nil

section

variable (h : Accumulated events s)

include h

theorem of_same (hsame : SameRows s t) : Accumulated events t where
  marks := by rw [hsame.rows, hsame.pending, h.marks]
  tools := by rw [hsame.rows, h.tools]
  counted := by rw [hsame.pending]; exact h.counted
  nonempty := by rw [hsame.rows]; exact h.nonempty
  last := by rw [hsame.rows, hsame.last]; exact h.last

/-- What has been accumulated is part of the text of the turn. -/
theorem pending_le : s.pendingTextAcc.text.length ≤ (streamedText events).length := by
  rw [← textOfMarks_events, ← h.marks, textOfMarks_append, textOfMarks_map_inl, List.length_append]
  omega

/-- A row that is no assistant row, together with the events it is for. -/
theorem insertRow {row : TurnRow Call Result}
    {more : List (SessionEvent Call Result)} (hmarks : row.marks = more.flatMap SessionEvent.marks)
    (htools : row.tools = more.flatMap SessionEvent.tools)
    (hpending : s.pendingTextAcc.text = [] ∨ row.marks = [])
    (hassistant : ∀ content, row ≠ .assistant content) :
    Accumulated (events ++ more) (s.insertRow row) where
  marks := by
    have hmoved : row.marks ++ s.pendingTextAcc.text.map .inl =
        s.pendingTextAcc.text.map .inl ++ row.marks := by
      rcases hpending with hnil | hnil <;> rw [hnil] <;> simp
    calc (s.insertRow row).rows.flatMap TurnRow.marks ++ s.pendingTextAcc.text.map .inl
        = s.rows.flatMap TurnRow.marks ++ (row.marks ++ s.pendingTextAcc.text.map .inl) := by
          rw [Turn.insertRow, List.flatMap_append, List.flatMap_singleton, List.append_assoc]
      _ = events.flatMap SessionEvent.marks ++ row.marks := by
          rw [hmoved, ← List.append_assoc, h.marks]
      _ = (events ++ more).flatMap SessionEvent.marks := by rw [hmarks, List.flatMap_append]
  tools := by
    rw [Turn.insertRow, List.flatMap_append, List.flatMap_singleton, h.tools, htools,
      List.flatMap_append]
  counted := h.counted
  nonempty hmem := by
    rcases List.mem_append.mp hmem with hmem | hmem
    · exact h.nonempty hmem
    · exact hassistant [] (List.mem_singleton.mp hmem).symm
  last hnone content hmem := by
    rcases List.mem_append.mp hmem with hmem | hmem
    · exact h.last hnone content hmem
    · exact hassistant content (List.mem_singleton.mp hmem).symm

theorem flushThinking : Accumulated events s.flushThinking := by
  unfold Turn.flushThinking
  split
  · have hrow : Accumulated (events ++ []) (s.insertRow (.thinking s.pendingThinkingAcc.text)) :=
      h.insertRow rfl rfl (.inr rfl) nofun
    rw [List.append_nil] at hrow
    exact hrow.of_same ⟨rfl, rfl, rfl⟩
  · exact h

/-- The text that has been accumulated becomes a row that is not empty. -/
theorem flushText : Accumulated events s.flushText ∧ s.flushText.pendingTextAcc.text = [] := by
  unfold Turn.flushText
  split
  · next hpos =>
    rw [h.counted] at hpos
    refine ⟨⟨?_, ?_, BoundedStringAccumulator.counted_empty, ?_, nofun⟩, rfl⟩
    · calc (s.rows ++ [TurnRow.assistant s.pendingTextAcc.text]).flatMap TurnRow.marks ++ []
          = s.rows.flatMap TurnRow.marks ++ s.pendingTextAcc.text.map .inl := by
            rw [List.append_nil, List.flatMap_append, List.flatMap_singleton]
            rfl
        _ = events.flatMap SessionEvent.marks := h.marks
    · calc (s.rows ++ [TurnRow.assistant s.pendingTextAcc.text]).flatMap TurnRow.tools
          = s.rows.flatMap TurnRow.tools := by
            rw [List.flatMap_append, List.flatMap_singleton]
            exact List.append_nil _
        _ = events.flatMap SessionEvent.tools := h.tools
    · intro hmem
      rcases List.mem_append.mp hmem with hmem | hmem
      · exact h.nonempty hmem
      · have htext := List.mem_singleton.mp hmem
        injection htext with htext
        rw [← htext] at hpos
        exact absurd hpos (Nat.lt_irrefl 0)
  · next hzero =>
    rw [h.counted, Nat.not_lt, Nat.le_zero] at hzero
    exact ⟨h, List.eq_nil_of_length_eq_zero hzero⟩

theorem flushPending :
    Accumulated events s.flushPending ∧ s.flushPending.pendingTextAcc.text = [] :=
  h.flushThinking.flushText

/-- An event that leaves no trace among the rows. -/
theorem skip {event : SessionEvent Call Result}
    (hmarks : event.marks = []) (htools : event.tools = []) :
    Accumulated (events ++ [event]) s where
  marks := by rw [List.flatMap_append, List.flatMap_singleton, hmarks, List.append_nil, h.marks]
  tools := by rw [List.flatMap_append, List.flatMap_singleton, htools, List.append_nil, h.tools]
  counted := h.counted
  nonempty := h.nonempty
  last := h.last

theorem text (chunk : Text)
    (hbound : (streamedText (events ++ [.text chunk])).length ≤ MAX_CHAT_STREAM_BYTES) :
    Accumulated (events ++ [.text chunk])
      { s with pendingTextAcc := s.pendingTextAcc.append chunk } where
  marks := by
    have hlength : s.pendingTextAcc.text.length + chunk.length ≤ MAX_CHAT_STREAM_BYTES := by
      have hpending := h.pending_le
      rw [streamedText_append, List.length_append] at hbound
      have hchunk : (streamedText [(.text chunk : SessionEvent Call Result)]).length =
          chunk.length := by rw [streamedText, List.flatMap_singleton]; rfl
      omega
    rw [BoundedStringAccumulator.text_append h.counted hlength, List.map_append,
      ← List.append_assoc, h.marks, List.flatMap_append, List.flatMap_singleton]
    rfl
  tools := by
    rw [h.tools, List.flatMap_append, List.flatMap_singleton]
    exact (List.append_nil _).symm
  counted := BoundedStringAccumulator.counted_append h.counted
  nonempty := h.nonempty
  last := h.last

theorem emit (event : SessionEvent Call Result)
    (hbound : (streamedText (events ++ [event])).length ≤ MAX_CHAT_STREAM_BYTES) :
    Accumulated (events ++ [event]) (s.emit event) := by
  cases event with
  | text chunk => exact (h.text chunk hbound).of_same (sameRows_push _ _)
  | thinking chunk =>
    have hskip : Accumulated (events ++ [.thinking chunk]) s := h.skip rfl rfl
    have hsame : SameRows s
        { s with pendingThinkingAcc := s.pendingThinkingAcc.append chunk } := ⟨rfl, rfl, rfl⟩
    exact hskip.of_same (hsame.trans (sameRows_push _ _))
  | tool_call call =>
    obtain ⟨hflushed, hnil⟩ := h.flushPending
    have hsame := sameRows_push s.flushPending (.tool_call call)
    exact (hflushed.of_same hsame).insertRow rfl rfl (.inl (by rw [hsame.pending, hnil])) nofun
  | tool_result result =>
    exact (h.of_same (sameRows_push s (.tool_result result))).insertRow rfl rfl (.inr rfl) nofun
  | turn_end => exact h.flushPending.1.skip rfl rfl

/-- A turn that ends persists its events. -/
theorem finish (rateLimited : Bool) : Persisted events (s.finish rateLimited).rows := by
  have hflushed : Accumulated events (if rateLimited then s.flushPending else s) := by
    split
    · exact h.flushPending.1
    · exact h
  obtain ⟨hlast, hnil⟩ := hflushed.flushPending
  generalize hend : (if rateLimited then s.flushPending else s).flushPending = flushed at hlast hnil
  have hrows : (s.finish rateLimited).rows = flushed.insertPlaceholder.rows := by
    rw [← hend]
    rfl
  have hmarks := hlast.marks
  rw [hnil, List.map_nil, List.append_nil] at hmarks
  rw [hrows]
  unfold insertPlaceholder
  split
  · exact persisted_of_marks hmarks hlast.tools fun hmem ↦ absurd hmem hlast.nonempty
  · next hnone =>
    have hnoText : streamedText events = [] := by
      rw [← textOfMarks_events, ← hmarks, textOfMarks_rows]
      refine List.flatMap_eq_nil_iff.mpr fun row hrow ↦ ?_
      cases row with
      | assistant content => exact absurd hrow (hlast.last hnone content)
      | thinking | call | result => rfl
    refine persisted_of_marks ?_ ?_ fun _ ↦ hnoText
    · rw [← hmarks]
      simp only [Turn.insertRow, List.flatMap_append, List.flatMap_singleton]
      exact List.append_nil _
    · rw [← hlast.tools]
      simp only [Turn.insertRow, List.flatMap_append, List.flatMap_singleton]
      exact List.append_nil _

end

end Accumulated

end Flockctl.Chats.Streaming
