import Flockctl.Chats.Streaming
import Mathlib.Data.List.DropRight

/-!
# Bounded accumulators

Two ways to keep the tail of a stream. The accumulator collects chunks and joins them when they are
read or when they grow over its bound, and `appendBounded` joins and cuts with every chunk. Both
have the same tail after every sequence of calls.
-/

namespace Flockctl.Chats.BoundedString

open Transition
open Streaming (Text MAX_CHAT_STREAM_BYTES)

/-! ## The code -/

/-- `text.slice(start)`. -/
def slice (text : Text) (start : ℤ) : Text :=
  if start < 0 then text.drop (text.length - start.natAbs) else text.drop start.toNat

structure BoundedStringAccumulator where
  maxBytes : ℕ := MAX_CHAT_STREAM_BYTES
  chunks : List Text := []
  totalLen : ℕ := 0
  wasTruncated : Bool := false

namespace BoundedStringAccumulator

variable (acc : BoundedStringAccumulator)

/-- On overflow the buffer collapses to its tail. -/
def append (chunk : Text) : BoundedStringAccumulator :=
  if chunk.length = 0 then acc
  else
    let chunks := acc.chunks ++ [chunk]
    let totalLen := acc.totalLen + chunk.length
    if acc.maxBytes < totalLen then
      let trimmed := slice chunks.flatten (-acc.maxBytes)
      { acc with chunks := [trimmed], totalLen := trimmed.length, wasTruncated := true }
    else { acc with chunks, totalLen }

/-- The text, and the buffer with the joined text in it. -/
def toString : Text × BoundedStringAccumulator :=
  match acc.chunks with
  | [] => ([], acc)
  | [chunk] => (chunk, acc)
  | chunks => (chunks.flatten, { acc with chunks := [chunks.flatten] })

def length : ℕ := acc.totalLen

def truncated : Bool := acc.wasTruncated

end BoundedStringAccumulator

def appendBounded (prev chunk : Text) (maxBytes : ℕ) : Text :=
  let combined := prev ++ chunk
  if combined.length ≤ maxBytes then combined else slice combined (-maxBytes)

/-! ## Runs -/

inductive Call
  | append (chunk : Text)
  | toString
  | length
  deriving DecidableEq, Repr

/-- What a call leaves behind. -/
def step (acc : BoundedStringAccumulator) : Call → BoundedStringAccumulator
  | .append chunk => acc.append chunk
  | .toString => acc.toString.2
  | .length => acc

/-- The chunks that the calls append. -/
def appended (calls : List Call) : List Text :=
  calls.filterMap fun call ↦ match call with
    | .append chunk => some chunk
    | .toString | .length => none

/-- The accumulator has the last part of all that was appended. -/
structure HasTail (maxBytes : ℕ) (acc : BoundedStringAccumulator) (chunks : List Text) :
    Prop where
  text : acc.toString.1 = chunks.flatten.rtake (min maxBytes chunks.flatten.length)
  length : acc.length = acc.toString.1.length
  truncated : acc.truncated = true ↔ maxBytes < chunks.flatten.length
  folds : acc.toString.1 = chunks.foldl (appendBounded · · maxBytes) []

theorem rtake_length_sub (text : Text) (n : ℕ) : text.rtake n = text.drop (text.length - n) := rfl

theorem rtake_of_length_le {text : Text} {n : ℕ} (h : text.length ≤ n) : text.rtake n = text := by
  rw [rtake_length_sub, Nat.sub_eq_zero_of_le h, List.drop_zero]

theorem rtake_min_length (text : Text) (n : ℕ) :
    text.rtake (min n text.length) = text.rtake n := by
  rw [rtake_length_sub, rtake_length_sub]
  congr 1
  omega

theorem length_rtake (text : Text) (n : ℕ) : (text.rtake n).length = min n text.length := by
  rw [rtake_length_sub, List.length_drop]
  omega

/-- The tail of a tail and what follows is the tail of all. -/
theorem rtake_rtake_append (text chunk : Text) (n : ℕ) :
    (text.rtake n ++ chunk).rtake n = (text ++ chunk).rtake n := by
  simp only [List.rtake_eq_reverse_take_reverse, List.reverse_append, List.reverse_reverse,
    List.take_append, List.take_take]
  congr 3
  omega

theorem slice_neg {text : Text} {n : ℕ} (hn : 1 ≤ n) : slice text (-n) = text.rtake n := by
  have hneg : (-(n : ℤ)) < 0 := by omega
  rw [slice, if_pos hneg, Int.natAbs_neg, Int.natAbs_natCast, rtake_length_sub]

theorem appendBounded_eq {n : ℕ} (hn : 1 ≤ n) (prev chunk : Text) :
    appendBounded prev chunk n = (prev ++ chunk).rtake n := by
  rw [appendBounded]
  split
  · rename_i hle
    exact (rtake_of_length_le hle).symm
  · exact slice_neg hn

/-- Folding keeps the tail of the concatenation. -/
theorem foldl_appendBounded {n : ℕ} (hn : 1 ≤ n) (chunks : List Text) :
    chunks.foldl (appendBounded · · n) [] = chunks.flatten.rtake n := by
  induction chunks using List.reverseRecOn with
  | nil => simp
  | append_singleton chunks chunk ih =>
    rw [List.foldl_concat, ih, appendBounded_eq hn, rtake_rtake_append, List.flatten_concat]

/-- The buffer holds the tail of the stream, and the counters are those of the buffer and of the
stream. -/
structure Holds (maxBytes : ℕ) (acc : BoundedStringAccumulator) (chunks : List Text) : Prop where
  bound : acc.maxBytes = maxBytes
  buffer : acc.chunks.flatten = chunks.flatten.rtake maxBytes
  totalLen : acc.totalLen = acc.chunks.flatten.length
  wasTruncated : acc.wasTruncated = true ↔ maxBytes < chunks.flatten.length

theorem toString_fst (acc : BoundedStringAccumulator) : acc.toString.1 = acc.chunks.flatten := by
  rw [BoundedStringAccumulator.toString]
  split
  · rename_i hchunks
    rw [hchunks, List.flatten_nil]
  · rename_i chunk hchunks
    rw [hchunks, List.flatten_singleton]
  · rfl

variable {maxBytes : ℕ} {acc : BoundedStringAccumulator} {chunks : List Text}

namespace Holds

theorem initial (maxBytes : ℕ) : Holds maxBytes { maxBytes } [] where
  bound := rfl
  buffer := (rtake_of_length_le (Nat.zero_le _)).symm
  totalLen := rfl
  wasTruncated := by simp

/-- Reading joins the chunks and changes nothing else. -/
theorem toString (h : Holds maxBytes acc chunks) : Holds maxBytes acc.toString.2 chunks := by
  rw [BoundedStringAccumulator.toString]
  split
  · exact h
  · exact h
  · constructor
    · exact h.bound
    · rw [List.flatten_singleton]
      exact h.buffer
    · rw [List.flatten_singleton]
      exact h.totalLen
    · exact h.wasTruncated

/-- A chunk that has no text changes nothing. -/
theorem append_empty (h : Holds maxBytes acc chunks) {chunk : Text} (hchunk : chunk.length = 0) :
    Holds maxBytes (acc.append chunk) (chunks ++ [chunk]) := by
  have hflatten : (chunks ++ [chunk]).flatten = chunks.flatten := by
    rw [List.flatten_concat, List.eq_nil_of_length_eq_zero hchunk, List.append_nil]
  rw [BoundedStringAccumulator.append, if_pos hchunk]
  constructor
  · exact h.bound
  · rw [hflatten]
    exact h.buffer
  · exact h.totalLen
  · rw [hflatten]
    exact h.wasTruncated

theorem append (hmax : 1 ≤ maxBytes) (h : Holds maxBytes acc chunks) (chunk : Text) :
    Holds maxBytes (acc.append chunk) (chunks ++ [chunk]) := by
  by_cases hchunk : chunk.length = 0
  · exact h.append_empty hchunk
  -- The buffer is cut exactly when the stream has grown over the bound.
  have hlength : acc.totalLen = min maxBytes chunks.flatten.length := by
    rw [h.totalLen, h.buffer, length_rtake]
  have hjoined : (acc.chunks ++ [chunk]).flatten = chunks.flatten.rtake maxBytes ++ chunk := by
    rw [List.flatten_concat, h.buffer]
  have htotal : (chunks ++ [chunk]).flatten.length = chunks.flatten.length + chunk.length := by
    rw [List.flatten_concat, List.length_append]
  rw [BoundedStringAccumulator.append, if_neg hchunk]
  dsimp only
  rw [h.bound]
  split
  · rename_i hover
    have hlong : maxBytes < (chunks ++ [chunk]).flatten.length := by omega
    have htrimmed : slice (acc.chunks ++ [chunk]).flatten (-maxBytes) =
        (chunks ++ [chunk]).flatten.rtake maxBytes := by
      rw [slice_neg hmax, hjoined, rtake_rtake_append, List.flatten_concat]
    rw [htrimmed]
    constructor
    · rfl
    · exact List.flatten_singleton
    · rw [List.flatten_singleton]
    · exact iff_of_true rfl hlong
  · rename_i hfits
    have hbefore : chunks.flatten.length ≤ maxBytes := by omega
    have hshort : (chunks ++ [chunk]).flatten.length ≤ maxBytes := by omega
    constructor
    · rfl
    · rw [hjoined, rtake_of_length_le hshort, rtake_of_length_le hbefore, List.flatten_concat]
    · rw [List.flatten_concat, List.length_append, h.totalLen]
    · rw [h.wasTruncated]
      omega

/-- Every call keeps the tail. -/
theorem step (hmax : 1 ≤ maxBytes) (h : Holds maxBytes acc chunks) (call : Call) :
    Holds maxBytes (BoundedString.step acc call) (chunks ++ appended [call]) := by
  cases call with
  | append chunk => exact h.append hmax chunk
  | toString =>
    rw [show appended [.toString] = [] from rfl, List.append_nil]
    exact h.toString
  | length =>
    rw [show appended [.length] = [] from rfl, List.append_nil]
    exact h

theorem run (hmax : 1 ≤ maxBytes) (calls : List Call) :
    Holds maxBytes (run BoundedString.step { maxBytes } calls) (appended calls) := by
  induction calls using List.reverseRecOn with
  | nil => exact initial maxBytes
  | append_singleton calls call ih =>
    rw [Transition.run, List.foldl_concat, appended, List.filterMap_append]
    exact ih.step hmax call

end Holds

/-- After every sequence of calls the accumulator has the tail of what was appended, with its
length, tells whether something in front of it is lost, and agrees with `appendBounded`. -/
theorem accumulator_hasTail (maxBytes : ℕ) (hmax : 1 ≤ maxBytes) (calls : List Call) :
    HasTail maxBytes (run step { maxBytes } calls) (appended calls) := by
  have h := Holds.run hmax calls
  constructor
  · rw [toString_fst, h.buffer, rtake_min_length]
  · rw [toString_fst, ← h.totalLen]
    rfl
  · exact h.wasTruncated
  · rw [toString_fst, h.buffer, foldl_appendBounded hmax]

/-- A bound of four, with a chunk that is longer. -/
theorem accumulator_hasTail_four :
    HasTail 4 (run step { maxBytes := 4 } [.append [1, 2, 3], .toString, .append [4, 5]])
      [[1, 2, 3], [4, 5]] :=
  accumulator_hasTail 4 (by decide) [.append [1, 2, 3], .toString, .append [4, 5]]

/-- The accumulator of a streamed turn is one with the default bound. -/
def ofTurn (acc : Streaming.BoundedStringAccumulator) : BoundedStringAccumulator where
  chunks := acc.chunks
  totalLen := acc.totalLen
  wasTruncated := acc.wasTruncated

theorem ofTurn_append (acc : Streaming.BoundedStringAccumulator) (chunk : Text) :
    ofTurn (acc.append chunk) = (ofTurn acc).append chunk := by
  have hbound : 1 ≤ MAX_CHAT_STREAM_BYTES := by decide
  by_cases hchunk : chunk.length = 0
  · rw [BoundedStringAccumulator.append, Streaming.BoundedStringAccumulator.append,
      if_pos hchunk, if_pos hchunk]
  · rw [BoundedStringAccumulator.append, Streaming.BoundedStringAccumulator.append,
      if_neg hchunk, if_neg hchunk]
    dsimp only
    by_cases hover : MAX_CHAT_STREAM_BYTES < acc.totalLen + chunk.length
    · rw [if_pos hover,
        if_pos (show (ofTurn acc).maxBytes < (ofTurn acc).totalLen + chunk.length from hover)]
      change _ = { maxBytes := (ofTurn acc).maxBytes
                   chunks := [slice _ (-(MAX_CHAT_STREAM_BYTES : ℕ))]
                   totalLen := (slice _ (-(MAX_CHAT_STREAM_BYTES : ℕ))).length
                   wasTruncated := true : BoundedStringAccumulator }
      simp only [slice_neg hbound, rtake_length_sub, ofTurn]
    · rw [if_neg hover,
        if_neg (show ¬(ofTurn acc).maxBytes < (ofTurn acc).totalLen + chunk.length from hover)]
      rfl

/-- A streamed turn reads the tail of all that it accumulated. -/
theorem text_of_appends (chunks : List Text) :
    (chunks.foldl Streaming.BoundedStringAccumulator.append {}).text =
      chunks.flatten.rtake MAX_CHAT_STREAM_BYTES := by
  have hrun : ofTurn (chunks.foldl Streaming.BoundedStringAccumulator.append {}) =
      run step {} (chunks.map .append) := by
    induction chunks using List.reverseRecOn with
    | nil => rfl
    | append_singleton chunks chunk ih =>
      rw [List.foldl_concat, ofTurn_append, ih, List.map_append]
      exact (List.foldl_concat step {} (Call.append chunk) (chunks.map Call.append)).symm
  have happended : appended (chunks.map .append) = chunks := by
    rw [appended, List.filterMap_map]
    exact List.filterMap_some
  have hbuffer := (Holds.run (show 1 ≤ MAX_CHAT_STREAM_BYTES by decide)
    (chunks.map Call.append)).buffer
  rw [happended] at hbuffer
  calc (chunks.foldl Streaming.BoundedStringAccumulator.append {}).text
      = (ofTurn (chunks.foldl Streaming.BoundedStringAccumulator.append {})).chunks.flatten := rfl
    _ = (run step {} (chunks.map .append)).chunks.flatten := by rw [hrun]
    _ = chunks.flatten.rtake MAX_CHAT_STREAM_BYTES := hbuffer

end Flockctl.Chats.BoundedString
