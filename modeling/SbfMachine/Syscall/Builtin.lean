import SbfMachine.CallHash
import SbfMachine.Syscall.Context
import SbfMachine.Text.Utf8

/-!
# The system calls of the machine

Eight system calls belong to the machine itself: one to abort, three to log, and four to copy,
fill and compare memory. A logging call costs a base price, or a unit for each byte of a long
message; a memory call costs a unit for every 250 bytes, but at least ten. The price is paid
before anything else happens.

## Main definitions

- `Builtin`, `Builtin.all` — the system calls
- `Builtin.name`, `Builtin.hash` — what programs call them by
- `Builtin.invoke` — what they do
-/

namespace SbfMachine

/-- A system call that the machine implements itself. -/
inductive Builtin
  | abort
  | log
  | log64
  | logComputeUnits
  | memcpy
  | memmove
  | memset
  | memcmp
  deriving DecidableEq

namespace Builtin

open Syscall

def all : List Builtin :=
  [.abort, .log, .log64, .logComputeUnits, .memcpy, .memmove, .memset, .memcmp]

/-- The symbol that programs link against. -/
def name : Builtin → String
  | .abort => "abort"
  | .log => "sol_log_"
  | .log64 => "sol_log_64_"
  | .logComputeUnits => "sol_log_compute_units_"
  | .memcpy => "sol_memcpy_"
  | .memmove => "sol_memmove_"
  | .memset => "sol_memset_"
  | .memcmp => "sol_memcmp_"

/-- The hash that calls name the system call by. -/
def hash (builtin : Builtin) : UInt32 :=
  CallHash.ofName builtin.name

def ofName? (name : String) : Option Builtin :=
  all.find? fun builtin => builtin.name = name

/-- Logs the message of `length` bytes at `address`. -/
def logMessage (address length : UInt64) : Syscall UInt64 := do
  if maxLogLength < length then
    throw .outOfCompute
  chargeAtLeast syscallBaseCost length
  let message ← slice address length
  logLine ("Program log: " ++ Text.Utf8.decodeLossy message)
  return 0

/-- Logs five numbers. -/
def logNumbers (arguments : Arguments) : Syscall UInt64 := do
  charge syscallBaseCost
  let numbers := [arguments.r1, arguments.r2, arguments.r3, arguments.r4, arguments.r5]
  logLine ("Program log: " ++ ", ".intercalate (numbers.map fun n => Text.hex n.toNat))
  return 0

/-- Logs the balance that is left after this call is paid for. -/
def logBalance : Syscall UInt64 := do
  charge syscallBaseCost
  let balance ← remaining
  logLine s!"Program consumption: {balance.toNat} units remaining"
  return 0

/-- Pays for handling `size` bytes of memory. -/
def chargeBytes (size : UInt64) : Syscall Unit :=
  chargeAtLeast memoryOpBaseCost (size / bytesPerUnit)

def distance (a b : UInt64) : UInt64 :=
  if a < b then b - a else a - b

/-- Copies `size` bytes; the bytes written are those that the source held before. -/
def copyBytes (target source size : UInt64) : Syscall UInt64 := do
  let data ← slice source size
  writeSlice target data
  return 0

/-- Copies between ranges that must not overlap. -/
def copyDisjoint (target source size : UInt64) : Syscall UInt64 := do
  chargeBytes size
  if distance target source < size then
    throw .copyOverlapping
  copyBytes target source size

/-- Copies between ranges that may overlap. -/
def moveBytes (target source size : UInt64) : Syscall UInt64 := do
  chargeBytes size
  copyBytes target source size

def setBytes (target value size : UInt64) : Syscall UInt64 := do
  chargeBytes size
  fillSlice target size value.toUInt8
  return 0

/-- The difference of the first bytes in which two byte strings differ, from index `i` on; zero
if there are none. -/
def firstDifference (a b : ByteArray) (i : Nat) : Int32 :=
  if h : i < a.size ∧ i < b.size then
    if a[i] = b[i] then firstDifference a b (i + 1)
    else a[i].toUInt32.toInt32 - b[i].toUInt32.toInt32
  else 0
termination_by a.size - i

/-- Compares `size` bytes and stores the difference of the first two that differ, as a signed
number of four bytes, at `result`. -/
def compareBytes (a b size result : UInt64) : Syscall UInt64 := do
  chargeBytes size
  let left ← slice a size
  let right ← slice b size
  let difference := firstDifference left right 0
  writeSlice result (Bytes.encodeLE difference.toUInt32.toUInt64 4)
  return 0

def invoke (builtin : Builtin) : Handler := fun arguments =>
  match builtin with
  | .abort => throw .aborted
  | .log => logMessage arguments.r1 arguments.r2
  | .log64 => logNumbers arguments
  | .logComputeUnits => logBalance
  | .memcpy => copyDisjoint arguments.r1 arguments.r2 arguments.r3
  | .memmove => moveBytes arguments.r1 arguments.r2 arguments.r3
  | .memset => setBytes arguments.r1 arguments.r2 arguments.r3
  | .memcmp => compareBytes arguments.r1 arguments.r2 arguments.r3 arguments.r4

end Builtin

end SbfMachine
