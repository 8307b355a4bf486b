import VariableReport.Text

/-!
# UTF-8

Texts are stored as bytes, one to four for a character. Decoding refuses the first
sequence that is not the shortest form of a character and says where it starts, how
many bytes of it could have begun a character, and what is wrong with it.
-/

namespace VariableReport.Utf8

abbrev Bytes := List UInt8

inductive Cause
  | startByte
  | continuationByte
  | endOfData
  deriving DecidableEq, Repr

/-- The sequence of `bytes`, which starts at `offset`, begins no character. -/
structure Fault where
  offset : Nat
  bytes : Bytes
  cause : Cause
  deriving DecidableEq, Repr

def encodeChar (c : Char) : Bytes :=
  let n := c.toNat
  if n < 0x80 then [n.toUInt8]
  else if n < 0x800 then [(0xC0 + n / 64).toUInt8, (0x80 + n % 64).toUInt8]
  else if n < 0x10000 then
    [(0xE0 + n / 4096).toUInt8, (0x80 + n / 64 % 64).toUInt8, (0x80 + n % 64).toUInt8]
  else
    [(0xF0 + n / 262144).toUInt8, (0x80 + n / 4096 % 64).toUInt8,
      (0x80 + n / 64 % 64).toUInt8, (0x80 + n % 64).toUInt8]

def encode (t : Text) : Bytes := t.flatMap encodeChar

/-- What a start byte demands: the number of bytes after it, the least and the greatest
first one of these, and the bits that the start byte carries. -/
structure Lead where
  more : Nat
  least : Nat
  greatest : Nat
  bits : Nat

def lead? (b : Nat) : Option Lead :=
  if b < 0x80 then some ⟨0, 0, 0, b⟩
  else if b < 0xC2 then none
  else if b < 0xE0 then some ⟨1, 0x80, 0xBF, b - 0xC0⟩
  else if b = 0xE0 then some ⟨2, 0xA0, 0xBF, 0⟩
  else if b = 0xED then some ⟨2, 0x80, 0x9F, 13⟩
  else if b < 0xF0 then some ⟨2, 0x80, 0xBF, b - 0xE0⟩
  else if b = 0xF0 then some ⟨3, 0x90, 0xBF, 0⟩
  else if b < 0xF4 then some ⟨3, 0x80, 0xBF, b - 0xF0⟩
  else if b = 0xF4 then some ⟨3, 0x80, 0x8F, 4⟩
  else none

/-- The state between bytes: nothing is open, or a character of the bytes `seen` (latest
first) still needs `more` bytes, the next between two bounds, and is `value` so far. -/
inductive State
  | between
  | inside (seen : Bytes) (more least greatest value : Nat)

def decodeFrom : State → Nat → Bytes → Except Fault Text
  | .between, _, [] => .ok []
  | .inside seen _ _ _ _, offset, [] => .error ⟨offset - seen.length, seen.reverse, .endOfData⟩
  | .between, offset, b :: bs =>
    match lead? b.toNat with
    | none => .error ⟨offset, [b], .startByte⟩
    | some ⟨0, _, _, bits⟩ => (decodeFrom .between (offset + 1) bs).map (Char.ofNat bits :: ·)
    | some ⟨more, least, greatest, bits⟩ =>
      decodeFrom (.inside [b] more least greatest bits) (offset + 1) bs
  | .inside seen more least greatest value, offset, b :: bs =>
    if least ≤ b.toNat && b.toNat ≤ greatest then
      let value := value * 64 + (b.toNat - 0x80)
      if more = 1 then (decodeFrom .between (offset + 1) bs).map (Char.ofNat value :: ·)
      else decodeFrom (.inside (b :: seen) (more - 1) 0x80 0xBF value) (offset + 1) bs
    else .error ⟨offset - seen.length, seen.reverse, .continuationByte⟩

def decode (bytes : Bytes) : Except Fault Text := decodeFrom .between 0 bytes

def Cause.text : Cause → Text
  | .startByte => "invalid start byte".toList
  | .continuationByte => "invalid continuation byte".toList
  | .endOfData => "unexpected end of data".toList

end VariableReport.Utf8
