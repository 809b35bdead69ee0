import SbfMachine.LoadError

/-!
# Failures of an execution

An execution goes through stages: system calls are registered, a program is loaded and verified,
and then it runs. A failure is an error of one of the stages. A fault says why a run ended without
a result, and an exception adds the slot number of the instruction that raised it.

## Main definitions

- `DuplicateSyscall` — why a system call is not registered
- `Flaw`, `VerifyError` — why a text is rejected, and where
- `Refusal`, `Fault`, `Exception` — why a run ended, and where
- `Failure` — the errors of all stages
- `Fault.message`, `Failure.message` — the wording
-/

namespace SbfMachine

/-- The hash of a name is already taken. -/
structure DuplicateSyscall where
  name : String
  hash : UInt32
  deriving DecidableEq

def DuplicateSyscall.message (duplicate : DuplicateSyscall) : String :=
  s!"syscall {Text.quote duplicate.name} ({Text.hexPadded 8 duplicate.hash.toNat}) " ++
    "collides with an existing entry"

inductive Flaw
  | sourceRegister (register : Nat)
  | destinationRegister (register : Nat)
  | unknownOpcode (opcode : UInt8)
  | shiftOutOfRange (amount : Int)
  | swapWidth (bits : Int)
  | divisionByZero
  | jumpOutOfCode (target : Int)
  /-- A jump to the second slot of a two-slot instruction. -/
  | jumpIntoWide (target : Nat)
  /-- A two-slot instruction without its second slot. -/
  | incompleteWide
  | callRegister (register : Nat)
  deriving DecidableEq

/-- Why a text is rejected. -/
inductive VerifyError
  | emptyText
  | unalignedText (size : Nat)
  /-- The instruction that starts at slot `pc` breaks a rule. -/
  | flawed (pc : Nat) (flaw : Flaw)
  deriving DecidableEq

def Flaw.message (pc : Nat) : Flaw → String
  | .sourceRegister register => s!"invalid source register r{register} at pc {pc}"
  | .destinationRegister register => s!"invalid destination register r{register} at pc {pc}"
  | .unknownOpcode opcode => s!"unknown opcode {Text.hexPadded 2 opcode.toNat} at pc {pc}"
  | .shiftOutOfRange amount => s!"shift by {amount} out of range at pc {pc}"
  | .swapWidth bits => s!"invalid byte swap width {bits} at pc {pc}"
  | .divisionByZero => s!"division by zero at pc {pc}"
  | .jumpOutOfCode target => s!"jump out of code to {target} at pc {pc}"
  | .jumpIntoWide target => s!"jump into the middle of lddw at {target} from pc {pc}"
  | .incompleteWide => s!"incomplete lddw at pc {pc}"
  | .callRegister register => s!"invalid callx register r{register} at pc {pc}"

namespace VerifyError

def message : VerifyError → String
  | .emptyText => ".text is empty"
  | .unalignedText size => s!".text size {size} is not a multiple of 8"
  | .flawed pc flaw => flaw.message pc

def pc? : VerifyError → Option Nat
  | .emptyText | .unalignedText _ => none
  | .flawed pc _ => some pc

end VerifyError

/-- Why the memory refuses an access. -/
inductive Refusal
  | unmapped
  /-- The access runs past the end of its region. -/
  | outOfBounds
  | readOnly
  /-- The access touches the gap behind a stack frame. -/
  | stackGap
  deriving DecidableEq

/-- A cause that ends an execution. -/
inductive Fault
  | divideByZero
  | divideOverflow
  | outOfCompute
  | callDepthExceeded
  /-- A call by a hash that is neither a system call nor a function of the program. -/
  | unknownCallTarget (hash : UInt32)
  /-- An indirect call to an address that is not the start of a slot. -/
  | callOutsideText (address : UInt64)
  /-- A refused access to the `size` bytes from `address` on. -/
  | accessViolation (address : UInt64) (size : Nat) (write : Bool) (refusal : Refusal)
  | pcOutOfBounds (pc : Nat)
  | invalidInstruction (opcode : UInt8)
  /-- The program asked to be aborted. -/
  | aborted
  | copyOverlapping
  /-- A system call of the host failed with a reason of its own. -/
  | syscallFailed (reason : String)
  | alreadyExecuted
  deriving DecidableEq

/-- A fault and the slot number of the instruction that raised it. -/
structure Exception where
  pc : Nat
  fault : Fault
  deriving DecidableEq

def Refusal.message : Refusal → String
  | .unmapped => "unmapped region"
  | .outOfBounds => "out of bounds"
  | .readOnly => "write to program"
  | .stackGap => "stack frame gap"

def Fault.message : Fault → String
  | .divideByZero => "division by zero"
  | .divideOverflow => "divide overflow"
  | .outOfCompute => "compute unit overrun"
  | .callDepthExceeded => "call depth exceeded"
  | .unknownCallTarget hash => s!"unknown symbol or syscall {Text.hexPadded 8 hash.toNat}"
  | .callOutsideText address => s!"indirect call to {Text.hex address.toNat} outside of .text"
  | .accessViolation address size write refusal =>
    s!"bad memory access at {Text.hex address.toNat} (size={size} write={write}), " ++
      s!"reason: {refusal.message}"
  | .pcOutOfBounds pc => s!"program counter {pc} out of bounds"
  | .invalidInstruction opcode => s!"invalid instruction {Text.hexPadded 2 opcode.toNat}"
  | .aborted => "program aborted"
  | .copyOverlapping => "overlapping memory copy"
  | .syscallFailed reason => s!"syscall failed: {reason}"
  | .alreadyExecuted => "interpreter already executed"

def Exception.message (exception : Exception) : String :=
  s!"exception at {exception.pc}: {exception.fault.message}"

/-- An error of one of the stages of an execution. -/
inductive Failure
  | registry (duplicate : DuplicateSyscall)
  | load (error : LoadError)
  | verify (error : VerifyError)
  | exception (raised : Exception)
  deriving DecidableEq

/-- The wording of a failure: the stage, then the error. An exception says by itself where it
comes from. -/
def Failure.message : Failure → String
  | .registry duplicate => s!"syscall registry: {duplicate.message}"
  | .load error => s!"load error: {error.message}"
  | .verify error => s!"verification failed: {error.message}"
  | .exception raised => raised.message

end SbfMachine
