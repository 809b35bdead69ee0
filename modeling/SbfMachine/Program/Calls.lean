import Std.Data.HashMap
import SbfMachine.CallHash
import SbfMachine.Isa.Slot
import SbfMachine.LoadError

/-!
# Local functions and relative calls

Local functions are called by the hash of their slot number, and the function table of a program
maps each such hash to the slot of the function. Compilers emit a call of a local function with the
distance to its first slot as the immediate. Before a program runs, each such call is turned into a
call by hash and its target is entered in the function table.

## Main definitions

- `FunctionTable` — slots by hash
- `FunctionTable.register`, `FunctionTable.slot?` — adding a function, and looking one up
- `TextRange` — where the text lies in an image
- `Slot.callDistance?` — which slots are relative calls
- `Linkage` — an image in progress, with the functions found so far
- `Linkage.resolveCalls` — resolving all relative calls of a text
-/

namespace SbfMachine

/-- The slots of local functions, by the hash that calls name them by. -/
structure FunctionTable where
  slots : Std.HashMap UInt32 Nat

namespace FunctionTable

def empty : FunctionTable where
  slots := ∅

def slot? (functions : FunctionTable) (hash : UInt32) : Option Nat :=
  functions.slots[hash]?

/-- Adds the function at a slot; also returns its hash. A function can be added any number of
times, but two functions cannot share a hash. -/
def register (functions : FunctionTable) (slot : Nat) :
    Except LoadError (UInt32 × FunctionTable) :=
  let hash := CallHash.ofSlot slot
  match functions.slot? hash with
  | some existing =>
    if existing = slot then .ok (hash, functions) else .error (.hashCollision hash slot)
  | none => .ok (hash, { slots := functions.slots.insert hash slot })

def size (functions : FunctionTable) : Nat :=
  functions.slots.size

/-- The functions with their hashes, in no particular order. -/
def toList (functions : FunctionTable) : List (UInt32 × Nat) :=
  functions.slots.toList

end FunctionTable

/-- Where a text lies in an image. -/
structure TextRange where
  start : Nat
  stop : Nat
  deriving DecidableEq

namespace TextRange

def size (text : TextRange) : Nat :=
  text.stop - text.start

def slotCount (text : TextRange) : Nat :=
  text.size / slotSize

/-- Whether an offset of the image lies in the text. -/
def contains (text : TextRange) (offset : Nat) : Bool :=
  text.start ≤ offset && offset < text.stop

/-- Offset of a slot in the image. -/
def slotOffset (text : TextRange) (pc : Nat) : Nat :=
  text.start + slotSize * pc

end TextRange

/-- The distance of a relative call. A call is relative if its source field is zero; the
immediate -1 is a placeholder that a relocation fills in. -/
def Slot.callDistance? (slot : Slot) : Option Int :=
  if slot.opcode = Opcode.call.toByte ∧ slot.src.val = 0 ∧ slot.imm.toInt ≠ -1 then
    some slot.imm.toInt
  else none

def immediateOffset : Nat := 4

def immediateSize : Nat := 4

/-- An image in progress. -/
structure Linkage where
  image : ByteArray
  functions : FunctionTable
  calls : Nat

namespace Linkage

/-- An image with which nothing has been done. -/
def ofImage (image : ByteArray) : Linkage where
  image
  functions := .empty
  calls := 0

/-- Resolves the call in slot `pc` if it is a relative one. -/
def resolveCall (text : TextRange) (pc : Nat) (linkage : Linkage) : Except LoadError Linkage :=
  match (Slot.atOffset linkage.image (text.slotOffset pc)).callDistance? with
  | none => .ok linkage
  | some distance =>
    let target := pc + 1 + distance
    if target < 0 ∨ text.slotCount ≤ target then .error (.callOutOfBounds pc target)
    -- From here on the target is named by its hash, which the call carries as its immediate.
    else
      match linkage.functions.register target.toNat with
      | .error error => .error error
      | .ok (hash, functions) =>
        .ok
          { image :=
              Bytes.writeLE linkage.image (text.slotOffset pc + immediateOffset) hash.toUInt64
                immediateSize
            functions
            calls := linkage.calls + 1 }

/-- Resolves the relative calls among the `count` slots from `pc` on. -/
def resolveCallsFrom (text : TextRange) (pc : Nat) (linkage : Linkage) :
    (count : Nat) → Except LoadError Linkage
  | 0 => .ok linkage
  | count + 1 => do
    let resolved ← resolveCall text pc linkage
    resolveCallsFrom text (pc + 1) resolved count

def resolveCalls (text : TextRange) (linkage : Linkage) : Except LoadError Linkage :=
  resolveCallsFrom text 0 linkage text.slotCount

end Linkage

end SbfMachine
