import SbfMachine.Link.Image
import SbfMachine.Link.Relocation
import SbfMachine.Program.Basic

/-!
# Loading

A file becomes a program in four steps, each of which can reject it: its metadata is read, its
image is copied, its calls and relocations are resolved, and its entry is found.

## Main definitions

- `Loaded` — a program with the numbers of its relocations
- `load` — from a file to a program
- `Loaded.events` — what an observer sees of it
-/

namespace SbfMachine

open Link

/-- A loaded program and how many relocations of each kind went into it. -/
structure Loaded where
  program : Program
  counts : RelocationCounts

/-- The slot that the entry address of an object is the start of. -/
def entrySlot (object : Elf.Object) (text : TextRange) : Except LoadError Nat :=
  let entry := object.header.entry.toNat
  let base := object.textSection.header.addr.toNat
  if base ≤ entry ∧ (entry - base) % slotSize = 0 ∧ entry - base < text.size then
    .ok ((entry - base) / slotSize)
  else .error (.invalidEntrypoint entry)

/-- Links and loads a file. -/
def load (file : ByteArray) : Except LoadError Loaded := do
  let object ← Elf.Object.ofFile file
  let (image, text) ← copyImage object
  let linkage ← (Linkage.ofImage image).resolveCalls text
  let linker : Linker :=
    { image := linkage.image
      functions := linkage.functions
      counts :=
        { calls := linkage.calls, abs64 := 0, relative := 0, functions := 0, syscalls := 0 } }
  let linked ← linker.applyAll object text object.relocations
  let entryPc ← entrySlot object text
  return {
    program :=
      { image := linked.image
        text
        entryPc
        functions := linked.functions
        sbfV2 := object.isSbfV2 }
    counts := linked.counts }

namespace Loaded

/-- The events of loading a program. -/
def events (loaded : Loaded) : List Event :=
  let program := loaded.program
  [.programLoaded program.text.size program.image.size program.functions.size program.entryPc
     program.sbfV2,
   .relocationsApplied loaded.counts]

end Loaded

end SbfMachine
