import SbfMachine.CallStack
import SbfMachine.Isa.Slot
import SbfMachine.Program.Basic
import SbfMachine.Syscall.Context

/-!
# The machine

A machine executes one program once. Its state consists of the registers, the number of the next
slot, the call stack, and what system calls see: memory, meter and log.

## Main definitions

- `Registers` — the register file
- `Options` — heap size, budget and input of an execution
- `Machine` — the state
- `Machine.boot` — the machine that is about to run a verified program
-/

namespace SbfMachine

/-- The contents of the registers. -/
structure Registers where
  values : Vector UInt64 registerCount

namespace Registers

/-- Registers that are all zero. -/
def zero : Registers where
  values := Vector.replicate registerCount 0

/-- The contents of a register; zero if there is no such register. -/
@[inline]
def get (registers : Registers) (register : Nat) : UInt64 :=
  if h : register < registerCount then registers.values[register] else 0

/-- Changes a register; without effect if there is no such register. -/
@[inline]
def set (registers : Registers) (register : Nat) (value : UInt64) : Registers :=
  if h : register < registerCount then { values := registers.values.set register value h }
  else registers

/-- A register that has been changed holds the new value, and the others what they held. -/
theorem get_set (registers : Registers) (register other : Nat) (value : UInt64) :
    (registers.set register value).get other =
      if register = other ∧ register < registerCount then value else registers.get other := by
  by_cases inside : register < registerCount
  · by_cases bound : other < registerCount
    · simp only [get, set, inside, bound, dif_pos, and_true]
      exact Vector.getElem_set ..
    · simp only [get, set, inside, bound, dif_pos, dif_neg, not_false_eq_true]
      rw [if_neg]
      omega
  · simp [set, inside]

/-- The registers that carry the arguments of a call. -/
def arguments (registers : Registers) : Arguments where
  r1 := registers.get 1
  r2 := registers.get 2
  r3 := registers.get 3
  r4 := registers.get 4
  r5 := registers.get 5

/-- The registers that a function restores for its caller. -/
def saved (registers : Registers) : SavedRegisters where
  r6 := registers.get 6
  r7 := registers.get 7
  r8 := registers.get 8
  r9 := registers.get 9

/-- Restores the registers of a caller. -/
def restore (registers : Registers) (saved : SavedRegisters) : Registers :=
  (((registers.set 6 saved.r6).set 7 saved.r7).set 8 saved.r8).set 9 saved.r9

/-- The contents of all registers. -/
def toList (registers : Registers) : List UInt64 :=
  registers.values.toList

end Registers

/-- What an execution is given besides the program. -/
structure Options where
  heapSize : Nat
  budget : UInt64
  input : ByteArray

/-- The default heap and budget, and no input. -/
def Options.default : Options where
  heapSize := defaultHeapSize
  budget := defaultBudget
  input := ByteArray.empty

/-- How far an execution has come. -/
inductive Status
  | ready
  | running
  | exited
  | faulted
  deriving DecidableEq

/-- The state of an execution. -/
structure Machine extends Context where
  registers : Registers
  /-- The slot of the next instruction; after a fault, of the one that raised it. -/
  pc : Nat
  calls : CallStack
  status : Status

namespace Machine

/-- The state before the first instruction: the input address is the first argument, and the
frame pointer is that of the entry frame. -/
def initial (program : Program) (options : Options) : Machine where
  memory := Memory.new program.image options.heapSize options.input
  meter := Meter.new options.budget
  log := #[]
  registers := (Registers.zero.set 1 inputBase).set framePointerRegister initialFramePointer
  pc := program.entryPc
  calls := CallStack.initial
  status := .ready

/-- Prepares the execution of a program, which has to pass the verification. -/
def boot (program : Program) (options : Options) : Except VerifyError Machine :=
  match program.verify with
  | .error error => .error error
  | .ok () => .ok (initial program options)

/-- The second operand of an instruction: its immediate as it reads it, or the contents of the
source register. -/
@[inline]
def operand (machine : Machine) (slot : Slot) (immediate : UInt64) : OperandForm → UInt64
  | .imm => immediate
  | .reg => machine.registers.get slot.src

/-- Changes a register and goes on at slot `pc`. -/
@[inline]
def assign (machine : Machine) (register : Nat) (value : UInt64) (pc : Nat) : Machine :=
  { machine with registers := machine.registers.set register value, pc }

/-- Goes on at slot `pc`. -/
@[inline]
def goto (machine : Machine) (pc : Nat) : Machine :=
  { machine with pc }

end Machine

end SbfMachine
