import SbfMachine.Machine.Step
import SbfMachine.Proofs.Isa.Slot

/-!
# Constants that programs load

A two-slot instruction loads the constant whose halves are the immediates of its slots. In a text it
is found by its first slot, and its second slot holds no instruction, so two of them never overlap.

## Main definitions

- `IsWidePair` — the slots of a two-slot instruction
- `Program.LoadsAt` — the constant that the instruction in a slot loads

## Main statements

- `Program.loadsAt_of_wide` — it is the one in its immediates
-/

namespace SbfMachine

/-- The slots `pc` and `pc + 1` are those of a two-slot instruction. -/
structure IsWidePair (text : ByteArray) (pc : Nat) : Prop where
  inside : pc + 1 < text.size / slotSize
  first : Opcode.ofByte? (Slot.atOffset text (slotSize * pc)).opcode = some .wide
  second : (Slot.atOffset text (slotSize * (pc + 1))).opcode = 0

instance (text : ByteArray) (pc : Nat) : Decidable (IsWidePair text pc) :=
  decidable_of_iff
    (pc + 1 < text.size / slotSize ∧
      Opcode.ofByte? (Slot.atOffset text (slotSize * pc)).opcode = some .wide ∧
      (Slot.atOffset text (slotSize * (pc + 1))).opcode = 0)
    ⟨fun ⟨hinside, hfirst, hsecond⟩ => ⟨hinside, hfirst, hsecond⟩,
      fun ⟨hinside, hfirst, hsecond⟩ => ⟨hinside, hfirst, hsecond⟩⟩

namespace IsWidePair

variable {text : ByteArray} {pc other : Nat}

theorem end_le (h : IsWidePair text pc) : slotSize * pc + 2 * slotSize ≤ text.size := by
  have hinside := h.inside
  simp only [slotSize] at hinside ⊢
  omega

/-- The slots of a two-slot instruction are no calls. -/
theorem opcode_ne_call (h : IsWidePair text pc) (hslot : other = pc ∨ other = pc + 1) :
    (Slot.atOffset text (slotSize * other)).opcode ≠ Opcode.call.toByte := by
  intro hcall
  rcases hslot with rfl | rfl
  · have hwide := h.first
    rw [hcall] at hwide
    exact absurd hwide (by decide)
  · have hzero := h.second
    rw [hcall] at hzero
    exact absurd hzero (by decide)

/-- Two-slot instructions do not overlap. -/
theorem ne_succ (h : IsWidePair text pc) (hother : IsWidePair text other) : other ≠ pc + 1 := by
  rintro rfl
  have hwide := hother.first
  rw [h.second] at hwide
  exact absurd hwide (by decide)

end IsWidePair

namespace Program

/-- The instruction in slot `pc` puts `value` into a register, whatever the machine is like, and the
execution goes on behind its second slot. -/
def LoadsAt (program : Program) (pc register : Nat) (value : UInt64) : Prop :=
  ∃ slot, program.slot? pc = some slot ∧
    ∀ (syscalls : Registry) (machine : Machine), machine.pc = pc →
      machine.execute program syscalls slot =
        .running (machine.assign register value (pc + 2))

/-- The constant that is loaded is the one in the immediates of the two slots. -/
theorem loadsAt_of_wide {program : Program} {pc : Nat} {slot second : Slot}
    (hslot : program.slot? pc = some slot) (hsecond : program.slot? (pc + 1) = some second)
    (hwide : Opcode.ofByte? slot.opcode = some .wide) :
    program.LoadsAt pc slot.dst (Slot.wideImmediate slot.uimm second.uimm) := by
  refine ⟨slot, hslot, fun syscalls machine hpc => ?_⟩
  unfold Machine.execute
  simp only [hwide, hpc, hsecond]

end Program

end SbfMachine
