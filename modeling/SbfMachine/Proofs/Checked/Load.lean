import SbfMachine.Proofs.Checked.Image
import SbfMachine.Proofs.Checked.Relocation
import SbfMachine.Proofs.Link.Layout

/-!
# Loading does not trap

Whoever made a file, loading it comes to an end with a program or an error. No sum of an offset and
a size leaves the words, no index and no range that is cut out lies outside of what it selects from,
and the text of a program that is loaded can be cut out of its image.

## Main definitions

- `Checked.load` — loading a file with operations that may trap
- `Checked.textBytes` — cutting out the text of a program
- `Checked.loadText` — both

## Main statements

- `Checked.load_eq` — loading does not trap
- `Checked.loadText_run` — nor does cutting out the text of what is loaded
-/

namespace SbfMachine

namespace Checked

def entrySlot (object : Elf.Object) (text : TextRange) : Checked Nat := do
  let table ← textSection object
  let entry := object.header.entry.toNat
  let base := table.header.addr.toNat
  if base ≤ entry ∧ (entry - base) % slotSize = 0 ∧ entry - base < text.size then
    return (entry - base) / slotSize
  else throw (.invalidEntrypoint entry)

/-- Links and loads a file. -/
def load (file : ByteArray) : Checked Loaded := do
  let object ← readObject file
  let (image, text) ← copyImage object
  let linkage ← resolveCalls text (.ofImage image)
  let linker : Link.Linker :=
    { image := linkage.image
      functions := linkage.functions
      counts :=
        { calls := linkage.calls, abs64 := 0, relative := 0, functions := 0, syscalls := 0 } }
  let linked ← applyAll object text linker object.relocations
  let entryPc ← entrySlot object text
  return {
    program :=
      { image := linked.image
        text
        entryPc
        functions := linked.functions
        sbfV2 := object.isSbfV2 }
    counts := linked.counts }

def textBytes (program : Program) : Checked ByteArray :=
  slice program.image program.text.start program.text.stop

/-- Loads a file and cuts out the text of the program. -/
def loadText (file : ByteArray) : Checked (Loaded × ByteArray) := do
  let loaded ← load file
  let text ← textBytes loaded.program
  return (loaded, text)

theorem entrySlot_eq (object : Elf.Object) (text : TextRange) :
    entrySlot object text = lift (SbfMachine.entrySlot object text) := by
  rw [entrySlot, textSection_eq, pure_bind, SbfMachine.entrySlot]
  dsimp only
  rw [lift_ite]
  rfl

/-- Loading does not trap. -/
theorem load_eq (file : ByteArray) : load file = lift (SbfMachine.load file) := by
  refine bind_eq_lift (readObject_eq file) fun object hobject => ?_
  refine bind_eq_lift (copyImage_eq object) fun ⟨image, text⟩ himage => ?_
  have hread := Elf.Object.readFrom_of_ofFile hobject
  have hfile := hread.fileSize
  have hrelocations := length_of_readRelocations hread.relocations
  obtain ⟨hstart, hstop, _⟩ := Link.text_inside_image hobject himage
  have hsize := Link.size_image_le hobject himage
  have htext : text.size ≤ Elf.maxFileSize := by
    rw [TextRange.size]
    omega
  refine bind_eq_lift (resolveCalls_eq (Nat.le_of_lt hstart) hstop htext) fun linkage _ => ?_
  have hnone : CountedBy 0
      { calls := linkage.calls, abs64 := 0, relative := 0, functions := 0, syscalls := 0 } :=
    ⟨Nat.le_refl 0, Nat.le_refl 0, Nat.le_refl 0, Nat.le_refl 0⟩
  have hbound : 0 + object.relocations.length < UInt64.size := by
    simp only [Elf.maxFileSize, UInt64.size] at hfile ⊢
    omega
  refine bind_eq_lift (applyAll_eq hnone hbound) fun linked _ => ?_
  exact bind_eq_lift (entrySlot_eq object text) fun entryPc _ => rfl

/-- The text of a program that is well-formed can be cut out of its image. -/
theorem textBytes_eq {program : Program} (h : program.WellFormed) :
    textBytes program = pure program.textBytes :=
  slice_eq h.start_le_stop h.stop_le_size

/-- Loading any file and cutting out the text of the program comes to an end, with what loading it
returns or the error that it fails with. -/
theorem loadText_run (file : ByteArray) :
    (loadText file).run =
      some ((SbfMachine.load file).map fun loaded => (loaded, loaded.program.textBytes)) := by
  rw [loadText, load_eq]
  cases hload : SbfMachine.load file with
  | error => rfl
  | ok loaded =>
    rw [lift_ok, pure_bind, textBytes_eq (wellFormed_of_load hload), pure_bind]
    rfl

end Checked

end SbfMachine
