import SbfMachine.Proofs.Isa.Slot
import SbfMachine.Proofs.Machine.Accesses

/-!
# Immediates and registers as operands

Arithmetic, conditional jumps and stores take their second operand from the immediate or from a
register. A register that holds the sign-extended immediate serves as well as the immediate
itself: the instruction has the same outcome in either form, also where it reads the immediate
without extending its sign.

The two forms have to stand in two programs. So the second program may have another image, and the
memory of the machine shows the image of the program that it runs.

## Main definitions

- `TwoForm` — the instructions that come in two forms
- `TwoForm.Slots` — two slots with the two forms of one instruction

## Main statements

- `AluOp.eval_immediate`, `Memory.store_immediate` — where the extension has no part in it
- `Machine.execute_registerForm` — the instruction in the slots does the same
- `Machine.step_registerForm` — so do the steps of two programs

## Implementation notes

Nothing is said about the number of the destination, so it may be the register that holds the
operand: the operands are read before the destination changes.
-/

namespace SbfMachine

/-- The instructions whose second operand is the immediate or the source register. -/
inductive TwoForm
  | alu (width : AluWidth) (op : AluOp)
  | branch (condition : Condition)
  | store (width : Width)

namespace TwoForm

def opcode (instruction : TwoForm) (form : OperandForm) : Opcode :=
  match instruction with
  | .alu width op => .alu width op form
  | .branch condition => .branch condition form
  | .store width => .store width form

/-- The slots have the same instruction, destination and offset, one of them with an immediate and
the other one with a source register. -/
structure Slots (instruction : TwoForm) (immediate register : Slot) : Prop where
  ofImmediate : Opcode.ofByte? immediate.opcode = some (instruction.opcode .imm)
  ofRegister : Opcode.ofByte? register.opcode = some (instruction.opcode .reg)
  dst : register.dst = immediate.dst
  off : register.off = immediate.off

end TwoForm

-- ════════════════════════════════════════════════════════════════════════
-- Instructions that use part of the immediate
-- ════════════════════════════════════════════════════════════════════════

/-- The extension of the immediate is above its four bytes. -/
theorem Slot.toUInt32_immediate (slot : Slot) : slot.immediate.toUInt32 = slot.uimm := by
  have hlow : (slot.imm.toBitVec.signExtend 64).setWidth 32 = slot.imm.toBitVec := by
    ext i hi
    rw [BitVec.getElem_setWidth, BitVec.getLsbD_signExtend, if_pos hi,
      BitVec.getLsbD_eq_getElem hi, Bool.and_eq_right_iff_imp]
    exact fun _ => decide_eq_true (by omega)
  exact UInt32.eq_of_toBitVec_eq hlow

theorem Slot.digit_immediate (slot : Slot) {i : Nat} (h : i < 4) :
    Bytes.digit slot.immediate i = Bytes.digit slot.uimm.toUInt64 i := by
  have hlow : slot.immediate.toNat % 2 ^ 32 = slot.uimm.toUInt64.toNat := by
    rw [← UInt64.toNat_toUInt32, slot.toUInt32_immediate, UInt32.toNat_toUInt64]
  rw [← UInt8.toNat_inj, Bytes.digit, Bytes.digit, UInt8.toNat_ofNat', UInt8.toNat_ofNat']
  obtain rfl | rfl | rfl | rfl : i = 0 ∨ i = 1 ∨ i = 2 ∨ i = 3 := by omega
  all_goals omega

/-- A 32-bit move cuts the extension off. -/
theorem AluOp.eval_mov_immediate (slot : Slot) (value : UInt64) :
    AluOp.mov.eval .w32 value slot.immediate = AluOp.mov.eval .w32 value slot.uimm.toUInt64 := by
  have hlow : slot.immediate.toUInt32 = slot.uimm.toUInt64.toUInt32 :=
    slot.toUInt32_immediate.trans (UInt32.toUInt32_toUInt64 slot.uimm).symm
  exact congrArg (fun word : UInt32 => Except.ok word.toUInt64) hlow

/-- An operation computes the same from the extended immediate as from the one that it reads. -/
theorem AluOp.eval_immediate (op : AluOp) (width : AluWidth) (slot : Slot) (value : UInt64) :
    op.eval width value slot.immediate = op.eval width value (slot.aluImmediate width op) := by
  unfold Slot.aluImmediate
  split
  · exact AluOp.eval_mov_immediate slot value
  · rfl

theorem Bytes.encodeLE_immediate (slot : Slot) {size : Nat} (h : size ≤ 4) :
    encodeLE slot.immediate size = encodeLE slot.uimm.toUInt64 size := by
  refine ext_byteAt (by rw [size_encodeLE, size_encodeLE]) fun i hi => ?_
  rw [size_encodeLE] at hi
  rw [byteAt_encodeLE, byteAt_encodeLE, if_pos hi, if_pos hi, slot.digit_immediate (by omega)]

/-- A store writes the same bytes of the extended immediate as of the one that it reads. -/
theorem Memory.store_immediate (memory : Memory) {window : Window} (slot : Slot) {width : Width}
    (h : window.size = width.bytes) :
    memory.store window slot.immediate = memory.store window (slot.storeImmediate width) := by
  rw [store_eq_overwrite, store_eq_overwrite, h]
  cases width with
  | double => rfl
  | byte | half | word => rw [Bytes.encodeLE_immediate slot (by decide), Slot.storeImmediate]

-- ════════════════════════════════════════════════════════════════════════
-- The two forms
-- ════════════════════════════════════════════════════════════════════════

namespace Machine

variable {instruction : TwoForm} {immediate register : Slot} {program other : Program}
  {machine : Machine}

/-- A register that holds the sign-extended immediate is as good as the immediate, whatever
programs the instruction stands in and whatever their images are. -/
theorem execute_registerForm (machine : Machine) (h : instruction.Slots immediate register)
    (hsrc : machine.registers.get register.src = immediate.immediate) (syscalls : Registry)
    (image : ByteArray) :
    execute other syscalls register (machine.mapMemory (·.withProgram image)) =
      (execute program syscalls immediate machine).map (·.mapMemory (·.withProgram image)) := by
  have hlanding : (machine.mapMemory (·.withProgram image)).landing register =
      machine.landing immediate := machine.landing_congr h.off
  have hoperand (value : UInt64) :
      (machine.mapMemory (·.withProgram image)).operand register value .reg =
        immediate.immediate := hsrc
  have himmediate (value : UInt64) : machine.operand immediate value .imm = value := rfl
  unfold execute
  simp only [h.ofImmediate, h.ofRegister]
  cases instruction with
  | alu width op =>
    simp only [TwoForm.opcode, hoperand, mapMemory_registers, h.dst, op.eval_immediate,
      himmediate]
    cases op.eval width (machine.registers.get immediate.dst) (immediate.aluImmediate width op) <;>
      rfl
  | branch condition =>
    simp only [TwoForm.opcode, hoperand, mapMemory_registers, h.dst, hlanding,
      himmediate]
    split <;> rfl
  | store width =>
    let access : Access :=
      { memory := machine.memory
        address := machine.registers.get immediate.dst + immediate.displacement
        size := width.bytes
        write := true }
    have hstore := access.ignores_withProgram_of_write image rfl
    have hplace : (machine.memory.withProgram image).window access.address width.bytes true =
      machine.memory.window access.address width.bytes true := hstore.place
    simp only [TwoForm.opcode, hoperand, mapMemory_registers, mapMemory_memory, h.dst,
      Slot.displacement_congr h.off, himmediate]
    rw [hplace]
    cases hwindow : machine.memory.window access.address width.bytes true with
    | error => rfl
    | ok window =>
      dsimp only
      rw [hstore.store hwindow,
        machine.memory.store_immediate immediate (Access.size_of_place hwindow)]
      rfl

/-- A program with the immediate form of an instruction in the slot at the program counter and a
program with the register form there make the same step, if the register holds the immediate. The
second program shows any image; if it shows the one that the machine has, the machine is the same
in both steps. -/
theorem step_registerForm (h : instruction.Slots immediate register)
    (hfetch : program.slot? machine.pc = some immediate)
    (hother : other.slot? machine.pc = some register)
    (hsrc : machine.registers.get register.src = immediate.immediate) (syscalls : Registry)
    (image : ByteArray) :
    step other syscalls (machine.mapMemory (·.withProgram image)) =
      (step program syscalls machine).map (·.mapMemory (·.withProgram image)) := by
  unfold step
  simp only [mapMemory_pc, mapMemory_meter, hfetch, hother]
  cases machine.meter.charge? instructionCost with
  | none => rfl
  | some meter => exact execute_registerForm { machine with meter } h hsrc syscalls image

/-- The program that consists of one instruction. -/
def onlySlot (slot : Slot) : Program where
  image := encodeText [slot]
  text := { start := 0, stop := 8 }
  entryPc := 0
  functions := .empty
  sbfV2 := false

/-- A register that holds minus five: adding minus five to it, and adding it to itself. -/
theorem step_registerForm_ownOperand :
    ∃ machine : Machine, machine.registers.get 1 = (-5 : Int64).toUInt64 ∧
      step (onlySlot (.new 0x0c 1 1 0 0)) .empty
          (machine.mapMemory (·.withProgram (encodeText [.new 0x0c 1 1 0 0]))) =
        (step (onlySlot (.new 0x04 1 0 0 (-5))) .empty machine).map
          (·.mapMemory (·.withProgram (encodeText [.new 0x0c 1 1 0 0]))) := by
  let machine : Machine :=
    (initial (onlySlot (.new 0x04 1 0 0 (-5))) .default).assign 1 (-5 : Int64).toUInt64 0
  have hsrc : machine.registers.get 1 = (-5 : Int64).toUInt64 :=
    (Registers.get_set ..).trans (if_pos (by decide))
  have hslots : (TwoForm.alu .w32 .add).Slots (.new 0x04 1 0 0 (-5)) (.new 0x0c 1 1 0 0) :=
    ⟨rfl, rfl, rfl, rfl⟩
  exact ⟨machine, hsrc, step_registerForm hslots (by decide +kernel) (by decide +kernel) hsrc _ _⟩

end Machine

end SbfMachine
