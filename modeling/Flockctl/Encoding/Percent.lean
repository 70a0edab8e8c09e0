import Flockctl.Encoding.Utf8

/-!
# Percent-encoded texts

`decodeURIComponent` replaces every group of percent-encoded octets that encodes a character by this
character, and throws where a percent sign does not start such a group. It leaves the texts without
a percent sign as they are and makes all others shorter.
-/

namespace Flockctl.Encoding

def hexDigit (c : Char) : Option ℕ :=
  if '0' ≤ c ∧ c ≤ '9' then some (c.toNat - '0'.toNat)
  else if 'a' ≤ c ∧ c ≤ 'f' then some (c.toNat - 'a'.toNat + 10)
  else if 'A' ≤ c ∧ c ≤ 'F' then some (c.toNat - 'A'.toNat + 10)
  else none

/-- An octet at the front of a text, and the rest. -/
def octet : List Char → Option (UInt8 × List Char)
  | '%' :: high :: low :: rest => do
    let highValue ← hexDigit high
    let lowValue ← hexDigit low
    some (UInt8.ofNat (highValue * 0x10 + lowValue), rest)
  | _ => none

/-- So many octets at the front of a text, and the rest. -/
def octets : ℕ → List Char → Option (List UInt8 × List Char)
  | 0, text => some ([], text)
  | count + 1, text => do
    let (first, rest) ← octet text
    let (others, rest) ← octets count rest
    some (first :: others, rest)

/-- The number of octets after the first. -/
def furtherOctets (first : UInt8) : Option ℕ :=
  if first.toNat < 0x80 then some 0
  else if first.toNat < 0xc0 then none
  else if first.toNat < 0xe0 then some 1
  else if first.toNat < 0xf0 then some 2
  else if first.toNat < 0xf8 then some 3
  else none

/-- The character that the octets encode. -/
def encodedChar (bytes : List UInt8) : Option Char :=
  match decode bytes with
  | [c] => if encode [c] = bytes then some c else none
  | _ => none

/-- The character at the front of a text that starts with a percent sign, and the rest. -/
def percentChar (text : List Char) : Option (Char × List Char) := do
  let (first, rest) ← octet text
  let count ← furtherOctets first
  let (others, rest) ← octets count rest
  let c ← encodedChar (first :: others)
  some (c, rest)

/-- The decoding of a text that is no longer than the first argument. -/
def decodeWithin : ℕ → List Char → Option (List Char)
  | _, [] => some []
  | 0, _ :: _ => none
  | size + 1, c :: text =>
    if c = '%' then do
      let (d, rest) ← percentChar (c :: text)
      let decoded ← decodeWithin size rest
      some (d :: decoded)
    else do
      let decoded ← decodeWithin size text
      some (c :: decoded)

/-- `decodeURIComponent(text)`, where `none` stands for the error. -/
def decodeURIComponent (text : List Char) : Option (List Char) := decodeWithin text.length text

/-- What a client percent-encodes a second time is decoded a second time. -/
example : decodeURIComponent "a%2Eb%C3%A9".toList = some ['a', '.', 'b', 'é'] := by decide

example : decodeURIComponent "100%".toList = none := by decide

end Flockctl.Encoding
