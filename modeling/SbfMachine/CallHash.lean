import SbfMachine.Bytes

/-!
# Call hashes

The immediate of a call names its target by a 32-bit hash: a system call by the hash of its name,
a local function by the hash of the eight little-endian bytes of its slot number. The hash is
murmur3 (x86, 32 bits) with seed zero.

## Main definitions

- `Murmur3.hash` — the hash of a byte string
- `CallHash.ofName`, `CallHash.ofSlot` — the hashes of system calls and of local functions
-/

namespace SbfMachine

namespace Murmur3

/-- `x` rotated left by `n` bits, for `0 < n < 32`. -/
def rotateLeft (x n : UInt32) : UInt32 :=
  (x <<< n) ||| (x >>> (32 - n))

/-- Scatters the bits of one block. -/
def scramble (block : UInt32) : UInt32 :=
  rotateLeft (block * 0xcc9e2d51) 15 * 0x1b873593

def absorb (state block : UInt32) : UInt32 :=
  rotateLeft (state ^^^ scramble block) 13 * 5 + 0xe6546b64

def finish (state : UInt32) : UInt32 :=
  let a := (state ^^^ (state >>> 16)) * 0x85ebca6b
  let b := (a ^^^ (a >>> 13)) * 0xc2b2ae35
  b ^^^ (b >>> 16)

/-- Absorbs `count` blocks of four bytes from `start` on. -/
def absorbBlocks (bytes : ByteArray) (start : Nat) (state : UInt32) : (count : Nat) → UInt32
  | 0 => state
  | count + 1 =>
    absorbBlocks bytes (start + 4) (absorb state (Bytes.readLE bytes start 4).toUInt32) count

/-- The hash of a byte string with seed zero. -/
def hash (bytes : ByteArray) : UInt32 :=
  let blocks := bytes.size / 4
  let state := absorbBlocks bytes 0 0 blocks
  let rest := (Bytes.readLE bytes (4 * blocks) (bytes.size % 4)).toUInt32
  let state := if bytes.size % 4 = 0 then state else state ^^^ scramble rest
  finish (state ^^^ UInt32.ofNat bytes.size)

end Murmur3

namespace CallHash

def ofName (name : String) : UInt32 :=
  Murmur3.hash name.toUTF8

/-- The hash of the slot number of a local function. -/
def ofSlot (slot : Nat) : UInt32 :=
  Murmur3.hash (Bytes.encodeLE (UInt64.ofNat slot) 8)

end CallHash

end SbfMachine
