import SbfMachine.AddressSpace
import SbfMachine.Bytes
import SbfMachine.Failure
import SbfMachine.Isa.Opcode

/-!
# Memory

The four regions of the address space, each backed by a byte string. The program image is
read-only. The frames of the stack lie next to one another in their byte string, whereas in the
address space a gap of the size of a frame follows each of them.

## Main definitions

- `Memory` — the byte strings behind the regions
- `Memory.locate` — where the bytes of an access are stored, or why it is refused
- `Memory.read`, `Memory.write`, `Memory.fill` — access to byte strings
- `Memory.readWord`, `Memory.writeWord` — access to little-endian numbers

## Design notes

Every access is located first, as a whole, and only then touches a byte. So a refused access has
no effect, and what an access does is a fact about its `Window` alone.
-/

namespace SbfMachine

/-- The byte strings behind the four regions. -/
structure Memory where
  program : ByteArray
  stack : ByteArray
  heap : ByteArray
  input : ByteArray
  /-- The stack has room for all frames. -/
  size_stack : stack.size = maxCallDepth * frameSize

/-- Consecutive bytes of one region: the place of an access. -/
structure Window where
  region : Region
  start : Nat
  size : Nat
  deriving DecidableEq

namespace Memory

/-- The memory of a fresh machine: an empty stack, an empty heap of the given size, and the input
of the host. -/
def new (program : ByteArray) (heapSize : Nat) (input : ByteArray) : Memory where
  program
  stack := Bytes.zeros (maxCallDepth * frameSize)
  heap := Bytes.zeros heapSize
  input
  size_stack := Bytes.size_zeros _

def bytes (memory : Memory) : Region → ByteArray
  | .program => memory.program
  | .stack => memory.stack
  | .heap => memory.heap
  | .input => memory.input

/-- Where an access to the stack begins in the byte string behind it. The offset selects a slot
of the size of a frame; even slots are frames and odd ones gaps. -/
def locateInStack (offset size : Nat) : Except Refusal Nat :=
  let slot := offset / frameSize
  let within := offset % frameSize
  if slot % 2 = 1 then .error .stackGap
  else if maxCallDepth ≤ slot / 2 then .error .outOfBounds
  else if frameSize < within + size then .error .stackGap
  else .ok (slot / 2 * frameSize + within)

/-- Where an access to a region begins in the byte string behind it. -/
def locateIn (region : Region) (offset size : Nat) (write : Bool) : Except Refusal Nat :=
  match region with
  | .program => if write then .error .readOnly else .ok offset
  | .stack => locateInStack offset size
  | .heap | .input => .ok offset

/-- The place of an access to the `size` bytes from `address` on, or why it is refused. -/
def locate (memory : Memory) (address : UInt64) (size : Nat) (write : Bool) :
    Except Refusal Window :=
  match Region.ofAddress? address with
  | none => .error .unmapped
  | some region =>
    match locateIn region (address - region.base).toNat size write with
    | .error refusal => .error refusal
    | .ok start =>
      if start + size ≤ (memory.bytes region).size then .ok { region, start, size }
      else .error .outOfBounds

/-- The place of an access, with the fault that a refusal amounts to. -/
def window (memory : Memory) (address : UInt64) (size : Nat) (write : Bool) :
    Except Fault Window :=
  match memory.locate address size write with
  | .ok window => .ok window
  | .error refusal => .error (.accessViolation address size write refusal)

/-- A refused access is a violation that names the access. -/
theorem exists_refusal_of_window {memory : Memory} {address : UInt64} {size : Nat} {write : Bool}
    {fault : Fault} (h : memory.window address size write = .error fault) :
    ∃ refusal, fault = .accessViolation address size write refusal := by
  unfold window at h
  split at h
  · cases h
  · next refusal _ => exact ⟨refusal, (Except.error.inj h).symm⟩

/-- Changes the bytes behind a region, but not how many there are; the program image never
changes. -/
@[inline]
def modify (memory : Memory) (region : Region) (change : ByteArray → ByteArray)
    (keeps : ∀ bytes, (change bytes).size = bytes.size) : Memory :=
  match region with
  | .program => memory
  | .stack =>
    { memory with
      stack := change memory.stack
      size_stack := (keeps memory.stack).trans memory.size_stack }
  | .heap => { memory with heap := change memory.heap }
  | .input => { memory with input := change memory.input }

def extract (memory : Memory) (window : Window) : ByteArray :=
  (memory.bytes window.region).extract window.start (window.start + window.size)

def overwrite (memory : Memory) (window : Window) (data : ByteArray) : Memory :=
  memory.modify window.region (Bytes.overwrite · window.start data) fun bytes =>
    Bytes.size_overwrite bytes window.start data

def fillWindow (memory : Memory) (window : Window) (value : UInt8) : Memory :=
  memory.modify window.region (Bytes.fill · window.start value window.size) fun bytes =>
    Bytes.size_fill bytes window.start value window.size

/-- Stores a little-endian number in a window. -/
def store (memory : Memory) (window : Window) (value : UInt64) : Memory :=
  memory.modify window.region (Bytes.writeLE · window.start value window.size) fun bytes =>
    Bytes.size_writeLE bytes window.start value window.size

/-- The `size` bytes from `address` on. -/
def read (memory : Memory) (address : UInt64) (size : Nat) : Except Fault ByteArray :=
  match memory.window address size false with
  | .error fault => .error fault
  | .ok window => .ok (memory.extract window)

def write (memory : Memory) (address : UInt64) (data : ByteArray) : Except Fault Memory :=
  match memory.window address data.size true with
  | .error fault => .error fault
  | .ok window => .ok (memory.overwrite window data)

/-- Sets the `size` bytes from `address` on to one value. -/
def fill (memory : Memory) (address : UInt64) (size : Nat) (value : UInt8) :
    Except Fault Memory :=
  match memory.window address size true with
  | .error fault => .error fault
  | .ok window => .ok (memory.fillWindow window value)

/-- The little-endian number of the given width at `address`. -/
def readWord (memory : Memory) (width : Width) (address : UInt64) : Except Fault UInt64 :=
  match memory.window address width.bytes false with
  | .error fault => .error fault
  | .ok window => .ok (Bytes.readLE (memory.bytes window.region) window.start width.bytes)

/-- A number can be read unless its window is refused. -/
theorem readWord_eq_error_iff {memory : Memory} {width : Width} {address : UInt64}
    {fault : Fault} : memory.readWord width address = .error fault ↔
      memory.window address width.bytes false = .error fault := by
  unfold readWord
  cases memory.window address width.bytes false <;> simp

/-- Writes the low bytes of a number at `address`, little-endian. -/
def writeWord (memory : Memory) (width : Width) (address value : UInt64) :
    Except Fault Memory :=
  match memory.window address width.bytes true with
  | .error fault => .error fault
  | .ok window => .ok (memory.store window value)

end Memory

end SbfMachine
