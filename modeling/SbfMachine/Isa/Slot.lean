import SbfMachine.Bytes
import SbfMachine.AddressSpace
import SbfMachine.Isa.Opcode
import SbfMachine.Text.Literals

/-!
# Instruction slots

Bytecode is a sequence of slots of eight bytes each:

```text
byte 0      opcode
byte 1      destination register (low half), source register (high half)
bytes 2-3   offset, signed, little-endian
bytes 4-7   immediate, signed, little-endian
```

## Main definitions

- `Slot` — the five fields of a slot
- `Slot.toWord`, `Slot.ofWord` — the slot as one little-endian number, and back
- `Slot.read?` — the slot at an index of a text
- `Slot.immediate`, `Slot.displacement` — the signed fields widened to a machine word
- `Slot.aluImmediate`, `Slot.storeImmediate` — the immediate as operations and stores read it
- `Slot.length` — number of slots of the instruction that starts here
-/

namespace SbfMachine

/-- The fields of one instruction slot. Register fields have four bits, so they can name
registers that the machine does not have. -/
structure Slot where
  opcode : UInt8
  dst : Fin 16
  src : Fin 16
  off : Int16
  imm : Int32
  deriving DecidableEq

namespace Slot

/-- The slot with the given fields; of a register number only the low four bits count. -/
def new (opcode dst src : UInt8) (off : Int16) (imm : Int32) : Slot :=
  { opcode, dst := Fin.ofNat 16 dst.toNat, src := Fin.ofNat 16 src.toNat, off, imm }

def uimm (slot : Slot) : UInt32 :=
  slot.imm.toUInt32

def withImm (slot : Slot) (imm : UInt32) : Slot :=
  { slot with imm := imm.toInt32 }

/-- The immediate, sign-extended to a machine word. -/
def immediate (slot : Slot) : UInt64 :=
  slot.imm.toInt64.toUInt64

/-- The immediate that an operation reads. A 32-bit move reads it without extending its sign. -/
def aluImmediate (slot : Slot) : AluWidth → AluOp → UInt64
  | .w32, .mov => slot.uimm.toUInt64
  | _, _ => slot.immediate

/-- The immediate that a store writes. Its sign is extended only where eight bytes are written. -/
def storeImmediate (slot : Slot) : Width → UInt64
  | .double => slot.immediate
  | .byte | .half | .word => slot.uimm.toUInt64

/-- The offset, sign-extended to a machine word. -/
def displacement (slot : Slot) : UInt64 :=
  slot.off.toInt64.toUInt64

/-- The slot whose eight bytes, read as one little-endian number, are `word`. -/
def ofWord (word : UInt64) : Slot where
  opcode := word.toUInt8
  dst := Fin.ofNat 16 (word / 0x100).toNat
  src := Fin.ofNat 16 (word / 0x1000).toNat
  off := (word / 0x10000).toUInt16.toInt16
  imm := (word / 0x100000000).toUInt32.toInt32

/-- The eight bytes of a slot as one little-endian number. -/
def toWord (slot : Slot) : UInt64 :=
  slot.opcode.toUInt64 + 0x100 * UInt64.ofNat slot.dst + 0x1000 * UInt64.ofNat slot.src +
    0x10000 * slot.off.toUInt16.toUInt64 + 0x100000000 * slot.uimm.toUInt64

def toBytes (slot : Slot) : ByteArray :=
  Bytes.encodeLE slot.toWord slotSize

/-- The slot stored in the eight bytes from `start` on. -/
def atOffset (bytes : ByteArray) (start : Nat) : Slot :=
  ofWord (Bytes.readLE bytes start slotSize)

/-- The slot with the given index in a text, if all of its bytes are there. -/
def read? (text : ByteArray) (index : Nat) : Option Slot :=
  if slotSize * index + slotSize ≤ text.size then some (atOffset text (slotSize * index))
  else none

/-- Number of slots that the instruction starting here takes; an unknown one takes one. -/
def length (slot : Slot) : Nat :=
  match Opcode.ofByte? slot.opcode with
  | some opcode => opcode.slots
  | none => 1

theorem length_pos (slot : Slot) : 0 < slot.length := by
  unfold length
  split
  · unfold Opcode.slots
    split <;> omega
  · omega

/-- A slot that can be read lies inside the text. -/
theorem lt_of_read?_eq_some {text : ByteArray} {index : Nat} {slot : Slot}
    (h : read? text index = some slot) : slotSize * index + slotSize ≤ text.size := by
  unfold read? at h
  split at h
  · assumption
  · cases h

/-- Going on behind a slot that can be read comes closer to the end of the text. -/
theorem size_sub_lt_of_read?_eq_some {text : ByteArray} {pc : Nat} {slot : Slot}
    (h : read? text pc = some slot) :
    text.size - (pc + slot.length) < text.size - pc := by
  have bound := lt_of_read?_eq_some h
  have positive := slot.length_pos
  simp only [slotSize] at bound
  omega

/-- The 64-bit constant that a slot and the slot after it carry in their immediates. -/
def wideImmediate (low high : UInt32) : UInt64 :=
  low.toUInt64 + 0x100000000 * high.toUInt64

/-- The slot as a record of its fields. -/
def describe (slot : Slot) : String :=
  "Slot \x7b opcode: " ++ Text.hexPadded 2 slot.opcode.toNat ++
    ", dst: " ++ toString slot.dst.val ++ ", src: " ++ toString slot.src.val ++ ", off: " ++ toString slot.off.toInt ++
    ", imm: " ++ toString slot.imm.toInt ++ " \x7d"

end Slot

/-- The encoding of a sequence of slots. -/
def encodeText (slots : List Slot) : ByteArray :=
  slots.foldl (fun text slot => Bytes.pushLE text slot.toWord slotSize) ByteArray.empty

end SbfMachine
