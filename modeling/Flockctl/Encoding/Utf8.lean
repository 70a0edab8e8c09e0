import Mathlib.Data.List.Basic

/-!
# UTF-8

A text is encoded character by character. A decoder reads any bytes: it keeps what it has seen of a
character, and where the bytes break off it gives the replacement character and starts anew at the
byte that does not fit. Decoding an encoded text gives the text back; encoding what was decoded
gives the bytes back exactly when they encode a text.
-/

namespace Flockctl.Encoding

/-- The bytes of a text. -/
def encode (text : List Char) : List UInt8 := text.flatMap String.utf8EncodeChar

@[simp] theorem encode_nil : encode [] = [] := rfl

@[simp] theorem encode_cons (c : Char) (text : List Char) :
    encode (c :: text) = String.utf8EncodeChar c ++ encode text := rfl

/-- The beginning of a character: its value so far, the number of bytes that are missing, and the
range of the next one. -/
structure Unfinished where
  value : ℕ
  needed : ℕ
  lower : ℕ
  upper : ℕ

def replacement : Char := '\ufffd'

/-- A byte where a character may start. -/
def start (byte : UInt8) : Option Unfinished × List Char :=
  let b := byte.toNat
  if b < 0x80 then (none, [Char.ofNat b])
  else if b < 0xc2 then (none, [replacement])
  else if b < 0xe0 then (some ⟨b % 0x20, 1, 0x80, 0xbf⟩, [])
  else if b < 0xf0 then
    (some ⟨b % 0x10, 2, if b = 0xe0 then 0xa0 else 0x80, if b = 0xed then 0x9f else 0xbf⟩, [])
  else if b < 0xf5 then
    (some ⟨b % 0x08, 3, if b = 0xf0 then 0x90 else 0x80, if b = 0xf4 then 0x8f else 0xbf⟩, [])
  else (none, [replacement])

/-- One byte, with the characters it completes. -/
def feed : Option Unfinished → UInt8 → Option Unfinished × List Char
  | none, byte => start byte
  | some seen, byte =>
    if seen.lower ≤ byte.toNat ∧ byte.toNat ≤ seen.upper then
      let value := seen.value * 0x40 + byte.toNat % 0x40
      if seen.needed = 1 then (none, [Char.ofNat value])
      else (some ⟨value, seen.needed - 1, 0x80, 0xbf⟩, [])
    else ((start byte).1, replacement :: (start byte).2)

def decodeFrom : Option Unfinished → List UInt8 → List Char
  | none, [] => []
  | some _, [] => [replacement]
  | state, byte :: rest => (feed state byte).2 ++ decodeFrom (feed state byte).1 rest

/-- `buffer.toString("utf-8")`. -/
def decode (bytes : List UInt8) : List Char := decodeFrom none bytes

theorem decodeFrom_cons (state : Option Unfinished) (byte : UInt8) (rest : List UInt8) :
    decodeFrom state (byte :: rest) =
      (feed state byte).2 ++ decodeFrom (feed state byte).1 rest := by
  cases state <;> rfl

theorem toNat_ofNat_of_lt {n : ℕ} (h : n < 0x100) : (UInt8.ofNat n).toNat = n := by
  rw [UInt8.toNat_ofNat', Nat.mod_eq_of_lt h]

/-- The last byte of a character. -/
theorem decodeFrom_last {value lower upper n : ℕ} (h : n < 0x100) (hlower : lower ≤ n)
    (hupper : n ≤ upper) (rest : List UInt8) :
    decodeFrom (some ⟨value, 1, lower, upper⟩) (UInt8.ofNat n :: rest) =
      Char.ofNat (value * 0x40 + n % 0x40) :: decodeFrom none rest := by
  rw [decodeFrom_cons, feed, toNat_ofNat_of_lt h, if_pos ⟨hlower, hupper⟩, if_pos rfl]
  rfl

/-- A byte of a character after which more are needed. -/
theorem decodeFrom_more {value needed lower upper n : ℕ} (h : n < 0x100) (hlower : lower ≤ n)
    (hupper : n ≤ upper) (rest : List UInt8) :
    decodeFrom (some ⟨value, needed + 2, lower, upper⟩) (UInt8.ofNat n :: rest) =
      decodeFrom (some ⟨value * 0x40 + n % 0x40, needed + 1, 0x80, 0xbf⟩) rest := by
  rw [decodeFrom_cons, feed, toNat_ofNat_of_lt h, if_pos ⟨hlower, hupper⟩,
    if_neg (show needed + 2 ≠ 1 by omega)]
  rfl

theorem decodeFrom_start {byte : UInt8} {seen : Unfinished} (h : start byte = (some seen, []))
    (rest : List UInt8) : decodeFrom none (byte :: rest) = decodeFrom (some seen) rest := by
  rw [decodeFrom_cons, feed, h]
  rfl

theorem start_one {n : ℕ} (h : n < 0x80) :
    start (UInt8.ofNat n) = (none, [Char.ofNat n]) := by
  simp only [start, toNat_ofNat_of_lt (show n < 0x100 by omega)]
  rw [if_pos h]

theorem start_two {n : ℕ} (hlow : 2 ≤ n) (hhigh : n < 0x20) :
    start (UInt8.ofNat (n % 0x20 + 0xc0)) = (some ⟨n, 1, 0x80, 0xbf⟩, []) := by
  simp only [start, toNat_ofNat_of_lt (show n % 0x20 + 0xc0 < 0x100 by omega)]
  rw [if_neg (by omega), if_neg (by omega), if_pos (by omega),
    show (n % 0x20 + 0xc0) % 0x20 = n by omega]

theorem start_three {n : ℕ} (h : n < 0x10) :
    start (UInt8.ofNat (n % 0x10 + 0xe0)) =
      (some ⟨n, 2, if n = 0 then 0xa0 else 0x80, if n = 0xd then 0x9f else 0xbf⟩, []) := by
  have hvalue : (n % 0x10 + 0xe0) % 0x10 = n := by omega
  have hlower : n % 0x10 + 0xe0 = 0xe0 ↔ n = 0 := by omega
  have hupper : n % 0x10 + 0xe0 = 0xed ↔ n = 0xd := by omega
  simp only [start, toNat_ofNat_of_lt (show n % 0x10 + 0xe0 < 0x100 by omega)]
  rw [if_neg (by omega), if_neg (by omega), if_neg (by omega), if_pos (by omega)]
  simp only [hvalue, hlower, hupper]

theorem start_four {n : ℕ} (h : n < 5) :
    start (UInt8.ofNat (n % 0x08 + 0xf0)) =
      (some ⟨n, 3, if n = 0 then 0x90 else 0x80, if n = 4 then 0x8f else 0xbf⟩, []) := by
  have hvalue : (n % 0x08 + 0xf0) % 0x08 = n := by omega
  have hlower : n % 0x08 + 0xf0 = 0xf0 ↔ n = 0 := by omega
  have hupper : n % 0x08 + 0xf0 = 0xf4 ↔ n = 4 := by omega
  simp only [start, toNat_ofNat_of_lt (show n % 0x08 + 0xf0 < 0x100 by omega)]
  rw [if_neg (by omega), if_neg (by omega), if_neg (by omega), if_neg (by omega),
    if_pos (by omega)]
  simp only [hvalue, hlower, hupper]

theorem decodeFrom_encodeChar (c : Char) (rest : List UInt8) :
    decodeFrom none (String.utf8EncodeChar c ++ rest) = c :: decodeFrom none rest := by
  have hvalid : c.toNat < 0xd800 ∨ 0xdfff < c.toNat ∧ c.toNat < 0x110000 := c.valid
  have hchar : Char.ofNat c.toNat = c := Char.ofNat_toNat c
  generalize hv : c.toNat = v at hvalid hchar
  have hval : c.val.toNat = v := hv
  unfold String.utf8EncodeChar
  simp only [hval]
  -- the value is put together again from the digits to the base 64
  have hlast : v / 64 * 0x40 + (v % 0x40 + 0x80) % 0x40 = v := by omega
  have hsecond : v / 4096 * 0x40 + (v / 64 % 0x40 + 0x80) % 0x40 = v / 64 := by omega
  have hthird : v / 262144 * 0x40 + (v / 4096 % 0x40 + 0x80) % 0x40 = v / 4096 := by omega
  split
  · rw [List.singleton_append, decodeFrom_cons, feed, start_one (by omega), hchar]
    rfl
  split
  · rw [List.cons_append, List.singleton_append, decodeFrom_start (start_two (by omega) (by omega)),
      decodeFrom_last (by omega) (by omega) (by omega), hlast, hchar]
  split
  · rw [List.cons_append, List.cons_append, List.singleton_append,
      decodeFrom_start (start_three (by omega)),
      decodeFrom_more (by omega) (by split <;> omega) (by split <;> omega), hsecond,
      decodeFrom_last (by omega) (by omega) (by omega), hlast, hchar]
  · rw [List.cons_append, List.cons_append, List.cons_append, List.singleton_append,
      decodeFrom_start (start_four (by omega)),
      decodeFrom_more (by omega) (by split <;> omega) (by split <;> omega), hthird,
      decodeFrom_more (by omega) (by omega) (by omega), hsecond,
      decodeFrom_last (by omega) (by omega) (by omega), hlast, hchar]

/-- Decoding an encoded text gives the text. -/
@[simp] theorem decode_encode (text : List Char) : decode (encode text) = text := by
  unfold decode
  induction text with
  | nil => rfl
  | cons c text ih => rw [encode_cons, decodeFrom_encodeChar, ih]

theorem encode_injective : Function.Injective encode :=
  Function.LeftInverse.injective decode_encode

/-- Bytes that are the encoding of a text. -/
def IsUtf8 (bytes : List UInt8) : Prop := ∃ text, encode text = bytes

/-- What was decoded encodes to the same bytes exactly when these encode a text. -/
theorem encode_decode_eq_iff (bytes : List UInt8) : encode (decode bytes) = bytes ↔ IsUtf8 bytes := by
  constructor
  · intro h
    exact ⟨decode bytes, h⟩
  · rintro ⟨text, rfl⟩
    rw [decode_encode]

end Flockctl.Encoding
