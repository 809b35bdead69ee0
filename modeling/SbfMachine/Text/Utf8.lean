import SbfMachine.Bytes

/-!
# Tolerant UTF-8

Bytes that a program logs as text need not be well-formed UTF-8. Each longest run of bytes that
begins a character but does not complete it, and each byte that can begin none, is shown as the
replacement character `U+FFFD`.

## Main definitions

- `Text.Utf8.decodeAt` — the character at a position and the number of bytes that it takes
- `Text.Utf8.decodeLossy` — a whole byte string as text
-/

namespace SbfMachine.Text.Utf8

open Bytes

/-- The character that stands for bytes without a meaning. -/
def replacement : Char := '\ufffd'

/-- Whether a byte can follow the first two bytes of a character. -/
def isContinuation (byte : UInt8) : Bool :=
  0x80 ≤ byte && byte ≤ 0xbf

/-- The number of bytes of the characters that a non-ASCII byte begins, and the range of the
second byte. The range leaves out overlong forms, surrogates and numbers past `U+10FFFF`. -/
def sequence? (lead : UInt8) : Option (Nat × UInt8 × UInt8) :=
  if lead < 0xc2 then none
  else if lead < 0xe0 then some (2, 0x80, 0xbf)
  else if lead = 0xe0 then some (3, 0xa0, 0xbf)
  else if lead = 0xed then some (3, 0x80, 0x9f)
  else if lead < 0xf0 then some (3, 0x80, 0xbf)
  else if lead = 0xf0 then some (4, 0x90, 0xbf)
  else if lead < 0xf4 then some (4, 0x80, 0xbf)
  else if lead = 0xf4 then some (4, 0x80, 0x8f)
  else none

def payload (byte : UInt8) : Nat :=
  byte.toNat % 64

/-- The character that begins at `i`, and how many bytes beyond the first it takes. -/
def decodeAt (bytes : ByteArray) (i : Nat) : Char × Nat :=
  let lead := byteAt bytes i
  if lead < 0x80 then (Char.ofNat lead.toNat, 0)
  else
    match sequence? lead with
    | none => (replacement, 0)
    | some (length, low, high) =>
      let second := byteAt bytes (i + 1)
      let third := byteAt bytes (i + 2)
      let fourth := byteAt bytes (i + 3)
      if second < low || high < second then (replacement, 0)
      else if length = 2 then
        (Char.ofNat (lead.toNat % 32 * 64 + payload second), 1)
      else if !isContinuation third then (replacement, 1)
      else if length = 3 then
        (Char.ofNat ((lead.toNat % 16 * 64 + payload second) * 64 + payload third), 2)
      else if !isContinuation fourth then (replacement, 2)
      else
        (Char.ofNat (((lead.toNat % 8 * 64 + payload second) * 64 + payload third) * 64 +
          payload fourth), 3)

/-- Appends the characters from `i` on to `text`. -/
def decodeFrom (bytes : ByteArray) (i : Nat) (text : String) : String :=
  if i < bytes.size then
    let (c, more) := decodeAt bytes i
    decodeFrom bytes (i + 1 + more) (text.push c)
  else text
termination_by bytes.size - i

/-- The text of a byte string, with replacement characters where it is not UTF-8. -/
def decodeLossy (bytes : ByteArray) : String :=
  decodeFrom bytes 0 ""

end SbfMachine.Text.Utf8
