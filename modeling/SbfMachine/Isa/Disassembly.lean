import SbfMachine.Isa.Slot
import SbfMachine.Isa.Opcode

/-!
# Disassembly

The textual form of instructions. Registers are written `r3`, immediates in signed decimal,
addresses as `[r1+0x8]` or `[r1-0x10]`, jump offsets with their sign, and calls by the
hexadecimal immediate.

## Main definitions

- `Slot.disassemble` — one instruction as text
- `disassemble` — a text as a sequence of numbered instructions
- `listing` — the same as a printable listing
-/

namespace SbfMachine

def registerName (register : Nat) : String :=
  s!"r{register}"

/-- The operand that addresses memory at a register plus an offset. -/
def addressText (register : Nat) (off : Int16) : String :=
  let magnitude := Text.hex off.toInt.natAbs
  if off.toInt < 0 then s!"[r{register}-{magnitude}]" else s!"[r{register}+{magnitude}]"

def jumpText (off : Int16) : String :=
  if off.toInt < 0 then toString off.toInt else s!"+{off.toInt}"

namespace Slot

def operandText (slot : Slot) : OperandForm → String
  | .imm => toString slot.imm.toInt
  | .reg => registerName slot.src

/-- The text of an instruction. The slot after it matters only where an instruction takes two
slots; a missing one counts as zero. -/
def disassemble (slot : Slot) (next : Option Slot) : String :=
  match Opcode.ofByte? slot.opcode with
  | none => s!"invalid {Text.hexPadded 2 slot.opcode.toNat}"
  | some opcode =>
    let name := opcode.mnemonic
    let dst := registerName slot.dst
    match opcode with
    | .wide =>
      let high := (next.map uimm).getD 0
      s!"{name} {dst}, {Text.hex (wideImmediate slot.uimm high).toNat}"
    | .load _ => s!"{name} {dst}, {addressText slot.src slot.off}"
    | .store _ form => s!"{name} {addressText slot.dst slot.off}, {slot.operandText form}"
    | .alu _ _ form => s!"{name} {dst}, {slot.operandText form}"
    | .neg _ => s!"{name} {dst}"
    | .swap _ => s!"{name}{slot.imm.toInt} {dst}"
    | .jump => s!"{name} {jumpText slot.off}"
    | .branch _ form => s!"{name} {dst}, {slot.operandText form}, {jumpText slot.off}"
    | .call => s!"{name} {Text.hex slot.uimm.toNat}"
    | .callRegister => s!"{name} {registerName slot.uimm.toNat}"
    | .exit => name

end Slot

/-- The instructions of a text from slot `pc` on, after those already collected. -/
def disassembleFrom (text : ByteArray) (pc : Nat) (lines : Array (Nat × String)) :
    Array (Nat × String) :=
  match _h : Slot.read? text pc with
  | none => lines
  | some slot =>
    disassembleFrom text (pc + slot.length)
      (lines.push (pc, slot.disassemble (Slot.read? text (pc + 1))))
termination_by text.size - pc
decreasing_by exact Slot.size_sub_lt_of_read?_eq_some ‹_›

/-- The instructions of a text with the numbers of the slots they start at. An instruction of
two slots is one line. -/
def disassemble (text : ByteArray) : Array (Nat × String) :=
  disassembleFrom text 0 #[]

/-- A line of a listing: the slot number, right-aligned in six columns, and the instruction. -/
def listingLine (pc : Nat) (instruction : String) : String :=
  let number := toString pc
  "".pushn ' ' (6 - number.length) ++ number ++ ": " ++ instruction ++ "\n"

def listing (text : ByteArray) : String :=
  (disassemble text).foldl (fun out (pc, instruction) => out ++ listingLine pc instruction) ""

end SbfMachine
