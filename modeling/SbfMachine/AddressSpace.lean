/-!
# The virtual address space

Sizes and addresses of the machine: the register file, the four regions of the address space,
the stack frames and the prices of execution.

```text
0x0_0000_0000 - 0x0_ffff_ffff   nothing
0x1_0000_0000 - 0x1_ffff_ffff   program image (read-only)
0x2_0000_0000 - 0x2_ffff_ffff   stack frames, each followed by an unmapped gap
0x3_0000_0000 - 0x3_ffff_ffff   heap
0x4_0000_0000 - 0x4_ffff_ffff   input of the host
```

## Main definitions

- `Region` — the four mapped regions
- `Region.ofAddress?`, `Region.base` — the region an address selects and where a region begins
- `initialFramePointer`, `frameSize`, `maxCallDepth` — geometry of the stack
-/

namespace SbfMachine

def registerCount : Nat := 11

/-- The register that points at the end of the current stack frame. -/
def framePointerRegister : Nat := 10

/-- The highest register that an ordinary instruction may write. -/
def maxWritableRegister : Nat := 9

def slotSize : Nat := 8

def programBase : UInt64 := 0x100000000

def stackBase : UInt64 := 0x200000000

def heapBase : UInt64 := 0x300000000

def inputBase : UInt64 := 0x400000000

/-- Addressable bytes of one stack frame; the gap behind a frame has the same size. -/
def frameSize : Nat := 0x1000

/-- Largest number of frames on the call stack, the entry frame included. -/
def maxCallDepth : Nat := 64

/-- Frame pointer of the entry frame: the end of the first frame. -/
def initialFramePointer : UInt64 := stackBase + UInt64.ofNat frameSize

/-- Heap size of an execution that asks for none. -/
def defaultHeapSize : Nat := 32768

/-- Budget of an execution that asks for none. -/
def defaultBudget : UInt64 := 1400000

def instructionCost : UInt64 := 1

def syscallBaseCost : UInt64 := 100

/-- Least price of a memory system call. -/
def memoryOpBaseCost : UInt64 := 10

/-- Bytes that a memory system call handles for one unit. -/
def bytesPerUnit : UInt64 := 250

/-- Longest message that a program may log. -/
def maxLogLength : UInt64 := 0x40000000

inductive Region
  | program
  | stack
  | heap
  | input
  deriving DecidableEq

namespace Region

/-- The region that the high half of an address selects. -/
def ofAddress? (address : UInt64) : Option Region :=
  match address.toNat / 0x100000000 with
  | 1 => some .program
  | 2 => some .stack
  | 3 => some .heap
  | 4 => some .input
  | _ => none

def base : Region → UInt64
  | .program => programBase
  | .stack => stackBase
  | .heap => heapBase
  | .input => inputBase

end Region

end SbfMachine
