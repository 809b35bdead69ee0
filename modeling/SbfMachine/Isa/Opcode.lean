/-!
# The instruction set

An opcode byte is composed of bit fields: the low three bits select a class; in the memory
classes the next two bits give the width of the access and the high three bits must be `011`; in
the arithmetic and jump classes bit 3 says whether the second operand is the immediate or a
register, and the high four bits select the operation.

## Main definitions

- `Opcode` — the instructions, with width, operation and operand form as data
- `Opcode.ofByte?`, `Opcode.toByte` — decoding and encoding of the opcode byte
- `Opcode.mnemonic` — the conventional name
- `Opcode.isJump`, `Opcode.isStore`, `Opcode.isWide` — the families with rules of their own
-/

namespace SbfMachine

inductive Width
  | byte
  | half
  | word
  | double
  deriving DecidableEq

inductive AluWidth
  | w32
  | w64
  deriving DecidableEq

/-- Where the second operand comes from: the immediate or the source register. -/
inductive OperandForm
  | imm
  | reg
  deriving DecidableEq

inductive AluOp
  | add
  | sub
  | mul
  | div
  | or
  | and
  | lsh
  | rsh
  | mod
  | xor
  | mov
  | arsh
  | sdiv
  deriving DecidableEq

/-- The conditions of a conditional jump; `s` marks a signed comparison. -/
inductive Condition
  | eq
  | gt
  | ge
  | set
  | ne
  | sgt
  | sge
  | lt
  | le
  | slt
  | sle
  deriving DecidableEq

/-- The byte order that a byte swap converts to. -/
inductive ByteOrder
  | little
  | big
  deriving DecidableEq

inductive Opcode
  /-- Load a 64-bit constant; takes two slots. -/
  | wide
  /-- Load from memory at source register plus offset. -/
  | load (width : Width)
  /-- Store to memory at destination register plus offset. -/
  | store (width : Width) (form : OperandForm)
  /-- Arithmetic on the destination register and a second operand. -/
  | alu (width : AluWidth) (op : AluOp) (form : OperandForm)
  /-- Negate the destination register. -/
  | neg (width : AluWidth)
  /-- Convert the low bits of the destination register to a byte order; the immediate is the
  number of bits. -/
  | swap (order : ByteOrder)
  | jump
  /-- Jump if a condition holds of the destination register and a second operand. -/
  | branch (condition : Condition) (form : OperandForm)
  /-- Call the function or system call whose hash is the immediate. -/
  | call
  /-- Call the address in the register that the immediate names. -/
  | callRegister
  | exit
  deriving DecidableEq

namespace Width

def bytes : Width → Nat
  | .byte => 1
  | .half => 2
  | .word => 4
  | .double => 8

/-- The width with the given two-bit code. -/
def ofCode? : Nat → Option Width
  | 0 => some .word
  | 1 => some .half
  | 2 => some .byte
  | 3 => some .double
  | _ => none

def code : Width → Nat
  | .word => 0
  | .half => 1
  | .byte => 2
  | .double => 3

/-- The letters that end the name of a memory instruction. -/
def suffix : Width → String
  | .byte => "b"
  | .half => "h"
  | .word => "w"
  | .double => "dw"

end Width

namespace AluWidth

def bits : AluWidth → Nat
  | .w32 => 32
  | .w64 => 64

def code : AluWidth → Nat
  | .w32 => 4
  | .w64 => 7

end AluWidth

namespace OperandForm

/-- The operand form with the given bit. -/
def ofCode : Nat → OperandForm
  | 0 => .imm
  | _ => .reg

def code : OperandForm → Nat
  | .imm => 0
  | .reg => 1

end OperandForm

namespace AluOp

/-- The operation with the given four-bit code. Codes 8 and 13 are negation and byte swap. -/
def ofCode? : Nat → Option AluOp
  | 0 => some .add
  | 1 => some .sub
  | 2 => some .mul
  | 3 => some .div
  | 4 => some .or
  | 5 => some .and
  | 6 => some .lsh
  | 7 => some .rsh
  | 9 => some .mod
  | 10 => some .xor
  | 11 => some .mov
  | 12 => some .arsh
  | 14 => some .sdiv
  | _ => none

def code : AluOp → Nat
  | .add => 0
  | .sub => 1
  | .mul => 2
  | .div => 3
  | .or => 4
  | .and => 5
  | .lsh => 6
  | .rsh => 7
  | .mod => 9
  | .xor => 10
  | .mov => 11
  | .arsh => 12
  | .sdiv => 14

def name : AluOp → String
  | .add => "add"
  | .sub => "sub"
  | .mul => "mul"
  | .div => "div"
  | .or => "or"
  | .and => "and"
  | .lsh => "lsh"
  | .rsh => "rsh"
  | .mod => "mod"
  | .xor => "xor"
  | .mov => "mov"
  | .arsh => "arsh"
  | .sdiv => "sdiv"

/-- The shifts, whose literal amount must be smaller than the width. -/
def isShift : AluOp → Bool
  | .lsh | .rsh | .arsh => true
  | _ => false

/-- The divisions, whose literal divisor must not be zero. -/
def isDivision : AluOp → Bool
  | .div | .mod | .sdiv => true
  | _ => false

end AluOp

namespace Condition

/-- The condition with the given four-bit code. -/
def ofCode? : Nat → Option Condition
  | 1 => some .eq
  | 2 => some .gt
  | 3 => some .ge
  | 4 => some .set
  | 5 => some .ne
  | 6 => some .sgt
  | 7 => some .sge
  | 10 => some .lt
  | 11 => some .le
  | 12 => some .slt
  | 13 => some .sle
  | _ => none

def code : Condition → Nat
  | .eq => 1
  | .gt => 2
  | .ge => 3
  | .set => 4
  | .ne => 5
  | .sgt => 6
  | .sge => 7
  | .lt => 10
  | .le => 11
  | .slt => 12
  | .sle => 13

/-- The name of the conditional jump on a condition. -/
def name : Condition → String
  | .eq => "jeq"
  | .gt => "jgt"
  | .ge => "jge"
  | .set => "jset"
  | .ne => "jne"
  | .sgt => "jsgt"
  | .sge => "jsge"
  | .lt => "jlt"
  | .le => "jle"
  | .slt => "jslt"
  | .sle => "jsle"

end Condition

namespace Opcode

/-- Arithmetic of the given width, from operand bit and operation code. -/
def ofAluCode? (width : AluWidth) (form op : Nat) : Option Opcode :=
  match op with
  | 8 => if form = 0 then some (.neg width) else none
  | 13 =>
    match width with
    | .w32 => some (.swap (if form = 0 then .little else .big))
    | .w64 => none
  | _ => (AluOp.ofCode? op).map (.alu width · (.ofCode form))

/-- A jump, call or return, from operand bit and operation code. -/
def ofJumpCode? (form op : Nat) : Option Opcode :=
  match op with
  | 0 => if form = 0 then some .jump else none
  | 8 => some (if form = 0 then .call else .callRegister)
  | 9 => if form = 0 then some .exit else none
  | _ => (Condition.ofCode? op).map (.branch · (.ofCode form))

/-- A memory access, from the five bits above the class. -/
def ofMemoryCode? (access : Width → Opcode) (code : Nat) : Option Opcode :=
  if code / 4 = 3 then (Width.ofCode? (code % 4)).map access else none

/-- The instruction that an opcode byte stands for, if it is in the instruction set. -/
def ofByte? (byte : UInt8) : Option Opcode :=
  let code := byte.toNat
  match code % 8 with
  | 0 => if code = 0x18 then some .wide else none
  | 1 => ofMemoryCode? .load (code / 8)
  | 2 => ofMemoryCode? (.store · .imm) (code / 8)
  | 3 => ofMemoryCode? (.store · .reg) (code / 8)
  | 4 => ofAluCode? .w32 (code / 8 % 2) (code / 16)
  | 5 => ofJumpCode? (code / 8 % 2) (code / 16)
  | 7 => ofAluCode? .w64 (code / 8 % 2) (code / 16)
  | _ => none

def toByte : Opcode → UInt8
  | .wide => 0x18
  | .load width => .ofNat (0x61 + 8 * width.code)
  | .store width .imm => .ofNat (0x62 + 8 * width.code)
  | .store width .reg => .ofNat (0x63 + 8 * width.code)
  | .alu width op form => .ofNat (width.code + 8 * form.code + 16 * op.code)
  | .neg width => .ofNat (width.code + 0x80)
  | .swap .little => 0xd4
  | .swap .big => 0xdc
  | .jump => 0x05
  | .branch condition form => .ofNat (0x05 + 8 * form.code + 16 * condition.code)
  | .call => 0x85
  | .callRegister => 0x8d
  | .exit => 0x95

/-- Encoding an instruction and decoding the byte again gives the instruction back. -/
theorem ofByte?_toByte (opcode : Opcode) : ofByte? opcode.toByte = some opcode := by
  cases opcode with
  | wide | jump | call | callRegister | exit => rfl
  | load width => cases width <;> rfl
  | store width form => cases width <;> cases form <;> rfl
  | alu width op form => cases width <;> cases op <;> cases form <;> rfl
  | neg width => cases width <;> rfl
  | swap order => cases order <;> rfl
  | branch condition form => cases condition <;> cases form <;> rfl

def mnemonic : Opcode → String
  | .wide => "lddw"
  | .load width => "ldx" ++ width.suffix
  | .store width .imm => "st" ++ width.suffix
  | .store width .reg => "stx" ++ width.suffix
  | .alu width op _ => op.name ++ toString width.bits
  | .neg width => "neg" ++ toString width.bits
  | .swap .little => "le"
  | .swap .big => "be"
  | .jump => "ja"
  | .branch condition _ => condition.name
  | .call => "call"
  | .callRegister => "callx"
  | .exit => "exit"

/-- Jumps go to the slot after the jump plus the offset. -/
def isJump : Opcode → Bool
  | .jump | .branch .. => true
  | _ => false

/-- Stores address memory through the destination register. -/
def isStore : Opcode → Bool
  | .store .. => true
  | _ => false

def isWide : Opcode → Bool
  | .wide => true
  | _ => false

def slots (opcode : Opcode) : Nat :=
  if opcode.isWide then 2 else 1

end Opcode

end SbfMachine
