import SbfMachine.Memory
import SbfMachine.Meter

/-!
# What a system call works on

A system call sees the memory, the meter and the log of the running program. It is an action on
these three that returns a number or ends in a fault; whatever it changed before a fault stays
changed.

## Main definitions

- `Context` — memory, meter and log
- `Syscall` — actions on a context
- `Syscall.charge`, `Syscall.slice`, `Syscall.writeSlice`, `Syscall.fillSlice`, `Syscall.logLine`
  — the basic actions
-/

namespace SbfMachine

/-- The part of a machine that a system call can see and change. -/
structure Context where
  memory : Memory
  meter : Meter
  log : Array String

/-- The contents of the registers `r1` to `r5`. -/
structure Arguments where
  r1 : UInt64
  r2 : UInt64
  r3 : UInt64
  r4 : UInt64
  r5 : UInt64

/-- Actions on a context that return a value or end in a fault. -/
abbrev Syscall := EStateM Fault Context

/-- A system call: an action for given arguments, whose value is the result of the call. -/
abbrev Handler := Arguments → Syscall UInt64

namespace Syscall

def charge (cost : UInt64) : Syscall Unit := fun context =>
  match context.meter.charge? cost with
  | some meter => .ok () { context with meter }
  | none => .error .outOfCompute context

/-- Pays for the call, but at least `lower`. -/
def chargeAtLeast (lower cost : UInt64) : Syscall Unit := fun context =>
  match context.meter.chargeAtLeast? lower cost with
  | some meter => .ok () { context with meter }
  | none => .error .outOfCompute context

/-- Paying at least `lower` is paying the larger one. -/
theorem chargeAtLeast_eq (lower cost : UInt64) :
    chargeAtLeast lower cost = charge (max lower cost) :=
  rfl

/-- The `size` bytes from `address` on. -/
def slice (address size : UInt64) : Syscall ByteArray := fun context =>
  match context.memory.read address size.toNat with
  | .ok bytes => .ok bytes context
  | .error fault => .error fault context

/-- Writes a byte string at `address`. -/
def writeSlice (address : UInt64) (data : ByteArray) : Syscall Unit := fun context =>
  match context.memory.window address data.size true with
  | .ok window => .ok () { context with memory := context.memory.overwrite window data }
  | .error fault => .error fault context

/-- Sets the `size` bytes from `address` on to one value. -/
def fillSlice (address size : UInt64) (value : UInt8) : Syscall Unit := fun context =>
  match context.memory.window address size.toNat true with
  | .ok window => .ok () { context with memory := context.memory.fillWindow window value }
  | .error fault => .error fault context

def logLine (line : String) : Syscall Unit := fun context =>
  .ok () { context with log := context.log.push line }

def remaining : Syscall UInt64 := fun context =>
  .ok context.meter.remaining context

end Syscall

end SbfMachine
