import SbfMachine.Failure
import SbfMachine.Isa.Disassembly

/-!
# Static verification

One forward pass over a text, before anything is executed. A text that passes names no register
that does not exist, writes no register that is read-only, divides by no literal zero, shifts by
no literal amount out of range, jumps neither outside the text nor into the second slot of an
instruction, and contains only instructions of the machine.

## Main definitions

- `checkSlot` — the rules for one instruction
- `verify` — the pass over a whole text
-/

namespace SbfMachine

/-- The slot number that a jump at slot `pc` goes to. -/
def jumpTarget (pc : Nat) (slot : Slot) : Int :=
  pc + 1 + slot.off.toInt

/-- Jumps stay inside the text and avoid second slots, which alone have opcode byte zero. -/
def checkJump (text : ByteArray) (pc : Nat) (slot : Slot) : Except Flaw Unit :=
  let target := jumpTarget pc slot
  if target < 0 ∨ (text.size / slotSize : Nat) ≤ target then .error (.jumpOutOfCode target)
  else
    match Slot.read? text target.toNat with
    | some landing =>
      if landing.opcode = 0 then .error (.jumpIntoWide target.toNat) else .ok ()
    | none => .ok ()

/-- The rule that belongs to one instruction alone: literal operands, jump targets and second
slots. -/
def checkOperands (text : ByteArray) (pc : Nat) (slot : Slot) : Opcode → Except Flaw Unit
  | .wide =>
    match Slot.read? text (pc + 1) with
    | some next => if next.opcode = 0 then .ok () else .error .incompleteWide
    | none => .error .incompleteWide
  | .alu width op .imm =>
    if op.isShift ∧ width.bits ≤ slot.uimm.toNat then .error (.shiftOutOfRange slot.imm.toInt)
    else if op.isDivision ∧ slot.imm = 0 then .error .divisionByZero
    else .ok ()
  | .swap _ =>
    if slot.imm = 16 ∨ slot.imm = 32 ∨ slot.imm = 64 then .ok ()
    else .error (.swapWidth slot.imm.toInt)
  | .jump | .branch .. => checkJump text pc slot
  | .callRegister =>
    if maxWritableRegister < slot.uimm.toNat then .error (.callRegister slot.uimm.toNat)
    else .ok ()
  | .load _ | .store .. | .alu _ _ .reg | .neg _ | .call | .exit => .ok ()

/-- The highest register that may stand in the destination field: stores only read it, so there
the frame pointer is allowed. -/
def maxDestination (opcode : Opcode) : Nat :=
  if opcode.isStore then framePointerRegister else maxWritableRegister

/-- Checks the instruction that starts at slot `pc`: the source register, then the rules of its
own, then the destination register. -/
def checkSlot (text : ByteArray) (pc : Nat) (slot : Slot) : Except Flaw Unit :=
  if framePointerRegister < slot.src.val then .error (.sourceRegister slot.src)
  else
    match Opcode.ofByte? slot.opcode with
    | none => .error (.unknownOpcode slot.opcode)
    | some opcode =>
      -- The rule of the instruction is checked, and reported, before its destination register.
      match checkOperands text pc slot opcode with
      | .error flaw => .error flaw
      | .ok () =>
        if maxDestination opcode < slot.dst.val then .error (.destinationRegister slot.dst)
        else .ok ()

/-- Checks the instructions from slot `pc` on. -/
def verifyFrom (text : ByteArray) (pc : Nat) : Except VerifyError Unit :=
  match _h : Slot.read? text pc with
  | none => .ok ()
  | some slot =>
    match checkSlot text pc slot with
    | .error flaw => .error (.flawed pc flaw)
    | .ok () => verifyFrom text (pc + slot.length)
termination_by text.size - pc
decreasing_by exact Slot.size_sub_lt_of_read?_eq_some ‹_›

def verify (text : ByteArray) : Except VerifyError Unit :=
  if text.size % slotSize ≠ 0 then .error (.unalignedText text.size)
  else if text.size = 0 then .error .emptyText
  else verifyFrom text 0

end SbfMachine
