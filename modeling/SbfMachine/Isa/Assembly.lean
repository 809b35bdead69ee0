import SbfMachine.CallHash
import SbfMachine.Isa.Slot

/-!
# Assembling

A small assembler: a program is a sequence of slots that is built by appending one instruction at
a time.

## Main definitions

- `Assembly` — the slots so far
- `Assembly.ins` and its relatives — appending an instruction
- `Assembly.text` — the bytecode
- `countOpcode` — how often an opcode stands in a text
-/

namespace SbfMachine

/-- A program in the making. -/
structure Assembly where
  slots : Array Slot

namespace Assembly

def empty : Assembly where
  slots := #[]

def ins (assembly : Assembly) (opcode dst src : UInt8) (off : Int16) (imm : Int32) : Assembly where
  slots := assembly.slots.push (Slot.new opcode dst src off imm)

/-- Loads a 64-bit constant. -/
def lddw (assembly : Assembly) (dst : UInt8) (value : UInt64) : Assembly :=
  let low := value.toUInt32.toInt32
  let high := (value / 0x100000000).toUInt32.toInt32
  (assembly.ins Opcode.wide.toByte dst 0 0 low).ins 0 0 0 0 high

def aluImm (assembly : Assembly) (opcode dst : UInt8) (imm : Int32) : Assembly :=
  assembly.ins opcode dst 0 0 imm

def aluReg (assembly : Assembly) (opcode dst src : UInt8) : Assembly :=
  assembly.ins opcode dst src 0 0

def mov64Imm (assembly : Assembly) (dst : UInt8) (imm : Int32) : Assembly :=
  assembly.aluImm (Opcode.alu .w64 .mov .imm).toByte dst imm

def mov64Reg (assembly : Assembly) (dst src : UInt8) : Assembly :=
  assembly.aluReg (Opcode.alu .w64 .mov .reg).toByte dst src

def add64Imm (assembly : Assembly) (dst : UInt8) (imm : Int32) : Assembly :=
  assembly.aluImm (Opcode.alu .w64 .add .imm).toByte dst imm

/-- Loads from memory at source register plus offset. -/
def load (assembly : Assembly) (opcode dst src : UInt8) (off : Int16) : Assembly :=
  assembly.ins opcode dst src off 0

def storeImm (assembly : Assembly) (opcode dst : UInt8) (off : Int16) (imm : Int32) : Assembly :=
  assembly.ins opcode dst 0 off imm

def storeReg (assembly : Assembly) (opcode dst : UInt8) (off : Int16) (src : UInt8) : Assembly :=
  assembly.ins opcode dst src off 0

def ja (assembly : Assembly) (off : Int16) : Assembly :=
  assembly.ins Opcode.jump.toByte 0 0 off 0

/-- Jumps if a comparison with an immediate holds. -/
def jumpImm (assembly : Assembly) (opcode dst : UInt8) (imm : Int32) (off : Int16) : Assembly :=
  assembly.ins opcode dst 0 off imm

/-- Jumps if a comparison with a register holds. -/
def jumpReg (assembly : Assembly) (opcode dst src : UInt8) (off : Int16) : Assembly :=
  assembly.ins opcode dst src off 0

/-- Calls the function at the given distance behind the next slot. -/
def call (assembly : Assembly) (distance : Int32) : Assembly :=
  assembly.ins Opcode.call.toByte 0 0 0 distance

/-- Calls a system call by the hash of its name. The source field tells it from a relative
call. -/
def syscall (assembly : Assembly) (name : String) : Assembly :=
  assembly.ins Opcode.call.toByte 0 1 0 (CallHash.ofName name).toInt32

/-- A call whose target a relocation fills in. -/
def callUnresolved (assembly : Assembly) : Assembly :=
  assembly.ins Opcode.call.toByte 0 0 0 (-1)

def callx (assembly : Assembly) (register : UInt8) : Assembly :=
  assembly.ins Opcode.callRegister.toByte 0 0 0 register.toUInt32.toInt32

def exit (assembly : Assembly) : Assembly :=
  assembly.ins Opcode.exit.toByte 0 0 0 0

def size (assembly : Assembly) : Nat :=
  assembly.slots.size

def isEmpty (assembly : Assembly) : Bool :=
  assembly.slots.isEmpty

def text (assembly : Assembly) : ByteArray :=
  encodeText assembly.slots.toList

end Assembly

/-- How many slots of a text begin with an opcode byte, second slots of instructions included. -/
def countOpcode (text : ByteArray) (opcode : UInt8) : Nat :=
  (List.range (text.size / slotSize)).countP fun pc =>
    Bytes.byteAt text (slotSize * pc) = opcode

end SbfMachine
