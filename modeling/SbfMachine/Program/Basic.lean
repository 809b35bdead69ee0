import SbfMachine.Program.Calls
import SbfMachine.Program.Verification

/-!
# Programs

A program is ready to run: its image is complete, its calls are resolved, and it knows where to
begin.

## Main definitions

- `Program` — image, text, entry and functions
- `Program.ofText` — the program that consists of a bare text
- `Program.slot?` — its instructions
- `Program.verify` — the static verification of its text
-/

namespace SbfMachine

structure Program where
  /-- The read-only bytes at the start of the program region. -/
  image : ByteArray
  /-- The part of the image that holds the instructions. -/
  text : TextRange
  entryPc : Nat
  functions : FunctionTable
  /-- Whether the program was built for version 2 of the format. -/
  sbfV2 : Bool

namespace Program

/-- The program that consists of a bare text, which begins at its first slot. -/
def ofText (text : ByteArray) : Except LoadError Program :=
  if text.size = 0 ∨ text.size % slotSize ≠ 0 then .error (.invalidTextSize text.size)
  else
    let range : TextRange := { start := 0, stop := text.size }
    match (Linkage.ofImage text).resolveCalls range with
    | .error error => .error error
    | .ok linkage =>
      .ok
        { image := linkage.image
          text := range
          entryPc := 0
          functions := linkage.functions
          sbfV2 := false }

def textBytes (program : Program) : ByteArray :=
  program.image.extract program.text.start program.text.stop

def slotCount (program : Program) : Nat :=
  program.text.slotCount

@[inline]
def slot? (program : Program) (pc : Nat) : Option Slot :=
  if pc < program.slotCount then
    some (Slot.atOffset program.image (program.text.slotOffset pc))
  else none

def textAddress (program : Program) : UInt64 :=
  programBase + UInt64.ofNat program.text.start

/-- The slot that an address is the start of. -/
def slotOfAddress? (program : Program) (address : UInt64) : Option Nat :=
  let base := program.textAddress.toNat
  if base ≤ address.toNat ∧ (address.toNat - base) % slotSize = 0 ∧
      (address.toNat - base) / slotSize < program.slotCount then
    some ((address.toNat - base) / slotSize)
  else none

def verify (program : Program) : Except VerifyError Unit :=
  SbfMachine.verify program.textBytes

end Program

end SbfMachine
