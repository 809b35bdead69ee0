import SbfMachine.Proofs.Isa.Disassembly
import SbfMachine.Proofs.Isa.Slot
import SbfMachine.Proofs.Machine.Effect
import SbfMachine.Proofs.Program.Rules

/-!
# Disassembled programs

A disassembly of a verified text has one line for every instruction, in the order of the text. The
line stands for the instruction: whoever puts an instruction with the same line in its place does
not change what the program does.

## Main definitions

- `Disassembled` — a disassembly has the lines of the instructions
- `Program.SameCalls` — programs whose calls lead to the same slots
- `SameInstruction` — two instructions do the same everywhere

## Main statements

- `toList_disassemble` — the lines of any text
- `disassembled_of_verify` — those of a verified text
- `Machine.execute_of_sameFields` — instructions do the same if they agree in the fields they read
- `faithfulDisassembly` — the lines of a disassembly tell the instructions
-/

namespace SbfMachine

-- ════════════════════════════════════════════════════════════════════════
-- The lines of a text
-- ════════════════════════════════════════════════════════════════════════

/-- The lines of a disassembly belong to the instructions of the text: there is one for each of
them, in increasing order, and it shows an instruction. -/
structure Disassembled (text : ByteArray) : Prop where
  starts : (disassemble text).toList.map Prod.fst = instructionStarts text
  increasing : (instructionStarts text).Pairwise (· < ·)
  lines : ∀ line ∈ (disassemble text).toList, ∃ slot opcode,
    Slot.read? text line.1 = some slot ∧ Opcode.ofByte? slot.opcode = some opcode ∧
      line.2 = slot.disassemble (Slot.read? text (line.1 + 1))
  valid : ∀ line ∈ (disassemble text).toList, ¬"invalid".toList <+: line.2.toList

/-- The line of the instruction that starts in a slot. -/
def lineAt (text : ByteArray) (start : Nat) : Nat × String :=
  (start, ((Slot.read? text start).map (·.disassemble (Slot.read? text (start + 1)))).getD "")

theorem toList_disassembleFrom (text : ByteArray) (pc : Nat) (lines : Array (Nat × String)) :
    (disassembleFrom text pc lines).toList =
      lines.toList ++ (startsFrom text pc).map (lineAt text) := by
  induction pc using startsFrom.induct text generalizing lines with
  | case1 pc hread =>
    rw [disassembleFrom, startsFrom, hread]
    exact (List.append_nil _).symm
  | case2 pc slot hread ih =>
    have hline : lineAt text pc = (pc, slot.disassemble (Slot.read? text (pc + 1))) := by
      rw [lineAt, hread]
      rfl
    rw [disassembleFrom, startsFrom, hread]
    dsimp only
    rw [ih, Array.toList_push, List.map_cons, hline, List.append_assoc, List.singleton_append]

/-- A disassembly walks along the instructions of a text, whether they obey the rules or not. -/
theorem toList_disassemble (text : ByteArray) :
    (disassemble text).toList = (instructionStarts text).map (lineAt text) :=
  toList_disassembleFrom text 0 #[]

theorem pairwise_startsFrom (text : ByteArray) (pc : Nat) :
    (startsFrom text pc).Pairwise (· < ·) := by
  induction pc using startsFrom.induct text with
  | case1 pc hread =>
    rw [startsFrom, hread]
    exact List.Pairwise.nil
  | case2 pc slot hread ih =>
    rw [startsFrom, hread]
    refine List.Pairwise.cons (fun start hstart => ?_) ih
    have hle := le_of_mem_startsFrom hstart
    have hpos := slot.length_pos
    omega

theorem disassembled_of_verify {text : ByteArray} (h : verify text = .ok ()) :
    Disassembled text := by
  have hlines : ∀ line ∈ (disassemble text).toList, ∃ slot opcode,
      Slot.read? text line.1 = some slot ∧ Opcode.ofByte? slot.opcode = some opcode ∧
        line.2 = slot.disassemble (Slot.read? text (line.1 + 1)) := by
    intro line hline
    rw [toList_disassemble] at hline
    obtain ⟨start, hstart, rfl⟩ := List.mem_map.1 hline
    obtain ⟨slot, hread⟩ := exists_read?_of_mem_startsFrom hstart
    obtain ⟨-, opcode, hopcode, -⟩ := checkSlot_eq_ok_iff.1 (checkSlot_of_verify h hstart hread)
    refine ⟨slot, opcode, hread, hopcode, ?_⟩
    rw [lineAt, hread]
    rfl
  refine ⟨?_, pairwise_startsFrom text 0, hlines, ?_⟩
  · rw [toList_disassemble, List.map_map]
    exact List.map_id _
  · intro line hline
    obtain ⟨slot, opcode, -, hopcode, htext⟩ := hlines line hline
    rw [htext]
    exact slot.not_invalid_disassemble _ hopcode

-- ════════════════════════════════════════════════════════════════════════
-- Instructions with the same line
-- ════════════════════════════════════════════════════════════════════════

/-- Calls lead to the same slots, by hash and by address. -/
structure Program.SameCalls (program other : Program) : Prop where
  functions : ∀ hash, other.functions.slot? hash = program.functions.slot? hash
  addresses : ∀ address, other.slotOfAddress? address = program.slotOfAddress? address

theorem Program.SameCalls.refl (program : Program) : program.SameCalls program :=
  ⟨fun _ => rfl, fun _ => rfl⟩

/-- The instructions in two slots, each with the slot after it, do the same. -/
structure SameInstruction (slot other : Slot) (next next' : Option Slot) : Prop where
  opcode : other.opcode = slot.opcode
  fields : ∀ opcode, Opcode.ofByte? slot.opcode = some opcode →
    opcode.SameFields slot other next next'
  /-- In a program, the one does what the other one does in its place. -/
  execute : ∀ program syscalls (machine : Machine),
    machine.execute program syscalls other = machine.execute program syscalls slot
  /-- So do two programs that differ in them, with the slots after them. -/
  step : ∀ (program program' : Program) syscalls (machine : Machine),
    program.SameCalls program' → next.isSome = next'.isSome →
    program.slot? machine.pc = some slot → program.slot? (machine.pc + 1) = next →
    program'.slot? machine.pc = some other → program'.slot? (machine.pc + 1) = next' →
      machine.step program' syscalls = machine.step program syscalls

namespace Machine

variable {slot other : Slot} {next next' : Option Slot} {opcode : Opcode} {machine : Machine}
  {program program' : Program}

theorem operand_of_sameOperand {form : OperandForm} {immediate immediate' : UInt64}
    (h : form.SameOperand slot other) (himmediate : slot.imm = other.imm → immediate = immediate') :
    machine.operand other immediate' form = machine.operand slot immediate form := by
  cases form with
  | imm => exact (himmediate h).symm
  | reg => exact (congrArg (fun src : Fin 16 => machine.registers.get src) h).symm

theorem call_of_sameCalls (hcalls : program.SameCalls program') (syscalls : Registry)
    (hash : UInt32) : machine.call program' syscalls hash = machine.call program syscalls hash := by
  unfold call
  rw [hcalls.functions]

/-- Instructions do the same if they agree in the fields that they read. -/
theorem execute_of_sameFields (hcalls : program.SameCalls program')
    (hopcode : Opcode.ofByte? slot.opcode = some opcode)
    (hopcode' : Opcode.ofByte? other.opcode = some opcode)
    (hfields : opcode.SameFields slot other next next')
    (hconstant : opcode = .wide →
      (program'.slot? (machine.pc + 1)).map (other.constant ∘ some) =
        (program.slot? (machine.pc + 1)).map (slot.constant ∘ some))
    (syscalls : Registry) :
    execute program' syscalls other machine = execute program syscalls slot machine := by
  unfold execute
  simp only [hopcode, hopcode']
  cases opcode with
  | wide =>
    have hconstant := hconstant rfl
    cases hsecond : program.slot? (machine.pc + 1) with
    | none =>
      rw [hsecond] at hconstant
      simp only [Option.map_eq_none_iff.1 hconstant]
    | some second =>
      rw [hsecond] at hconstant
      obtain ⟨second', hsecond', hvalue⟩ := Option.map_eq_some_iff.1 hconstant
      have hvalue : Slot.wideImmediate other.uimm second'.uimm =
        Slot.wideImmediate slot.uimm second.uimm := hvalue
      simp only [hsecond', hvalue, hfields.1]
  | load width =>
    obtain ⟨hdst, hsrc, hoff⟩ := hfields
    simp only [Slot.displacement_congr hoff, hdst, hsrc]
  | store width form =>
    obtain ⟨hdst, hoff, hoperand⟩ := hfields
    simp only [Slot.displacement_congr hoff,
      operand_of_sameOperand hoperand fun h => Slot.storeImmediate_congr h width, hdst]
  | alu width op form =>
    obtain ⟨hdst, hoperand⟩ := hfields
    simp only [operand_of_sameOperand hoperand fun h => Slot.aluImmediate_congr h width op, hdst]
  | neg width => simp only [show slot.dst = other.dst from hfields]
  | swap order => simp only [hfields.1, hfields.2]
  | jump => simp only [landing_congr machine hfields]
  | branch condition form =>
    obtain ⟨hdst, hoperand, hoff⟩ := hfields
    simp only [operand_of_sameOperand hoperand Slot.immediate_congr, landing_congr machine hoff,
      hdst]
  | call =>
    have huimm : other.uimm = slot.uimm := (Slot.uimm_congr hfields).symm
    simp only [huimm, call_of_sameCalls hcalls]
  | callRegister =>
    have huimm : other.uimm = slot.uimm := (Slot.uimm_congr hfields).symm
    simp only [huimm, callAddress, hcalls.addresses]
  | exit => rfl

end Machine

/-- Instructions with equal lines are the same instruction. -/
theorem sameInstruction_of_disassemble {slot other : Slot} {next next' : Option Slot}
    {opcode opcode' : Opcode} (hopcode : Opcode.ofByte? slot.opcode = some opcode)
    (hopcode' : Opcode.ofByte? other.opcode = some opcode')
    (h : slot.disassemble next = other.disassemble next') :
    SameInstruction slot other next next' := by
  obtain ⟨rfl, hfields⟩ := Slot.sameFields_of_disassemble hopcode hopcode' h
  have hbyte : other.opcode = slot.opcode := Opcode.byte_eq_of_ofByte? hopcode' hopcode
  refine ⟨hbyte, ?_, ?_, ?_⟩
  · intro decoded hdecoded
    obtain rfl := Option.some.inj (hopcode.symm.trans hdecoded)
    exact hfields
  · intro program syscalls machine
    refine machine.execute_of_sameFields (.refl program) hopcode hopcode' hfields ?_ syscalls
    rintro rfl
    have huimm : other.uimm = slot.uimm := (Slot.wideImmediate_injective hfields.2).1.symm
    have hconstant : other.constant = slot.constant := by
      funext second
      rw [Slot.constant, Slot.constant, huimm]
    rw [hconstant]
  · intro program program' syscalls machine hcalls hpresent hfetch hsecond hfetch' hsecond'
    unfold Machine.step
    simp only [hfetch, hfetch']
    cases machine.meter.charge? instructionCost with
    | none => rfl
    | some meter =>
      refine Machine.execute_of_sameFields hcalls hopcode hopcode' hfields ?_ syscalls
      rintro rfl
      change (program'.slot? (machine.pc + 1)).map _ = (program.slot? (machine.pc + 1)).map _
      rw [hsecond, hsecond']
      cases next with
      | none =>
        cases next' with
        | none => rfl
        | some second => cases hpresent
      | some second =>
        cases next' with
        | none => cases hpresent
        | some second => exact congrArg some hfields.2.symm

/-- The lines of a disassembly tell the instructions. There is one line for every instruction of a
verified text, and two instructions have the same line only if they are the same. -/
theorem faithfulDisassembly :
    (∀ text : ByteArray, verify text = .ok () → Disassembled text) ∧
    ∀ (slot other : Slot) (next next' : Option Slot) (opcode opcode' : Opcode),
      Opcode.ofByte? slot.opcode = some opcode → Opcode.ofByte? other.opcode = some opcode' →
      slot.disassemble next = other.disassemble next' → SameInstruction slot other next next' :=
  ⟨fun _ => disassembled_of_verify,
    fun _ _ _ _ _ _ hopcode hopcode' => sameInstruction_of_disassemble hopcode hopcode'⟩

/-- The text of a constant and a return, and the same constant in slots that differ in fields which
nothing reads. -/
theorem faithfulDisassembly_unreadFields :
    Disassembled (encodeText [.new 0x18 1 0 0 5, .new 0 0 0 0 1, .new 0x95 0 0 0 0]) ∧
      SameInstruction (.new 0x18 1 0 0 5) (.new 0x18 1 7 3 5) (some (.new 0 0 0 0 1))
        (some (.new 0 2 0 9 1)) :=
  ⟨faithfulDisassembly.1 _ (by decide +kernel),
    faithfulDisassembly.2 _ _ _ _ .wide .wide (by decide) (by decide) (by decide +kernel)⟩

end SbfMachine
