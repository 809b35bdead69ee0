import SbfMachine.Proofs.Machine.ControlFlow
import SbfMachine.Proofs.Program.LocalCalls

/-!
# Where direct transfers lead

An execution comes to a slot by jumps, by returns, through a computed address, or by a direct
transfer: the program is entered, or a function of its table is called by hash. Resolving calls and
applying relocations see to it that direct transfers stay inside the text; the verification sees to
it that jumps avoid second slots. Nobody sees to it that direct transfers do. A verified program may
therefore be entered, or call a function, at the second slot of an instruction, and the run ends
there. Where all direct transfers lead to the starts of instructions, only a computed address can
lead a run into a second slot.

## Main definitions

- `Program.IsDirectTarget` — the entry and the functions of a program
- `Machine.EnteredByAddress` — a call through a register led here
- `Program.DirectTransfers` — where direct transfers lead and what happens there

## Main statements

- `Machine.step_of_isSecondSlot` — a run ends at a second slot
- `Machine.enteredByAddress_of_invalidInstruction` — how a run gets there otherwise
- `Program.directTransfers_of_verify` — both for the direct transfers of a verified program
-/

namespace SbfMachine

/-- A slot that the program names without computing an address: its entry or a function. -/
def Program.IsDirectTarget (program : Program) (pc : Nat) : Prop :=
  pc = program.entryPc ∨ ∃ hash, program.functions.slot? hash = some pc

namespace Machine

/-- The last step called the slot at the program counter by its address. -/
inductive EnteredByAddress (program : Program) (syscalls : Registry) (options : Options)
    (machine : Machine) : Prop
  | intro (caller : Machine) (before : Reachable program syscalls options caller) (slot : Slot)
      (fetched : program.slot? caller.pc = some slot)
      (decoded : Opcode.ofByte? slot.opcode = some .callRegister)
      (address : program.slotOfAddress? (caller.registers.get slot.uimm.toNat) = some machine.pc)
      (stepped : step program syscalls caller = .running machine)

section Verified

variable {program : Program} (hformed : program.WellFormed) (hverify : program.verify = .ok ())
variable {syscalls : Registry} {options : Options} {machine : Machine}
include hformed

include hverify in
/-- The entry and the functions of a verified program are slots of its text. -/
theorem start_or_second_of_isDirectTarget {pc : Nat} (h : program.IsDirectTarget pc) :
    pc ∈ instructionStarts program.textBytes ∨ IsSecondSlot program.textBytes pc := by
  apply start_or_second_of_verify hverify
  rw [hformed.slotsOf_textBytes]
  rcases h with rfl | ⟨hash, hslot⟩
  · exact hformed.entryPc_lt
  · exact (hformed.functions_within hash pc hslot).2

include hverify in
/-- A run that comes to a second slot ends there, once the slot is paid for. -/
theorem step_of_isSecondSlot {meter : Meter}
    (hsecond : IsSecondSlot program.textBytes machine.pc)
    (hcharge : machine.meter.charge? instructionCost = some meter) :
    step program syscalls machine = .faulted (.invalidInstruction 0) { machine with meter } := by
  obtain ⟨slot, hread, hzero⟩ := opcode_of_isSecondSlot hverify hsecond
  rw [← Program.slot?_eq_read? hformed] at hread
  simp only [step, hread, hcharge]
  rw [execute, hzero]
  rfl

omit hformed in
/-- A direct transfer led to the program counter, or a computed address did. -/
theorem isDirectTarget_or_enteredByAddress
    (h : EnteredDirectly program syscalls options machine) :
    program.IsDirectTarget machine.pc ∨ EnteredByAddress program syscalls options machine := by
  cases h with
  | entry _ _ _ place => exact .inl (.inl place)
  | called caller before slot fetched callee stepped =>
    rcases call_of_callee? callee with ⟨_, _, hfunction⟩ | ⟨decoded, haddress⟩
    · exact .inl (.inr ⟨slot.uimm, hfunction⟩)
    · exact .inr ⟨caller, before, slot, fetched, decoded, haddress, stepped⟩

/-- Where direct transfers lead to starts of instructions, only a computed address leads a run to a
slot that holds no instruction. -/
theorem enteredByAddress_of_invalidInstruction
    (hstarts : ∀ pc, program.IsDirectTarget pc → pc ∈ instructionStarts program.textBytes)
    (hreach : Reachable program syscalls options machine) {byte : UInt8} {final : Machine}
    (hstep : step program syscalls machine = .faulted (.invalidInstruction byte) final) :
    EnteredByAddress program syscalls options machine ∨
      FailsInSyscall program syscalls machine (.invalidInstruction byte) := by
  have hverified := hreach.verified
  refine (byte_of_invalidInstruction hformed hverified hstep).imp_left fun ⟨_, hsecond⟩ => ?_
  have hinside : ¬IsBoundary program.textBytes machine.pc :=
    not_isBoundary_of_isSecondSlot hverified hsecond
  have hentered := (hreach.boundary_or_entered hformed).resolve_left hinside
  exact (isDirectTarget_or_enteredByAddress hentered).resolve_left fun htarget =>
    hinside (.inl (hstarts _ htarget))

end Verified

end Machine

namespace Program

/-- Where the direct transfers of a program lead, and what becomes of a run there. -/
structure DirectTransfers (program : Program) : Prop where
  /-- They stay inside the text, but may lead to second slots. -/
  place : ∀ pc, program.IsDirectTarget pc →
    pc ∈ instructionStarts program.textBytes ∨ IsSecondSlot program.textBytes pc
  /-- The opcode byte tells which of the two it is. -/
  opcode : ∀ pc slot, program.slot? pc = some slot →
    (pc ∈ instructionStarts program.textBytes ↔ slot.opcode ≠ 0)
  /-- At a second slot the run ends, with nothing changed but the price of the slot. -/
  second : ∀ syscalls (machine : Machine) meter, IsSecondSlot program.textBytes machine.pc →
    machine.meter.charge? instructionCost = some meter →
      machine.step program syscalls = .faulted (.invalidInstruction 0) { machine with meter }
  /-- If they lead to starts of instructions only, then the calls through registers are the only
  way to a slot that holds no instruction. -/
  starts : (∀ pc, program.IsDirectTarget pc → pc ∈ instructionStarts program.textBytes) →
    ∀ syscalls options machine byte final, Machine.Reachable program syscalls options machine →
      machine.step program syscalls = .faulted (.invalidInstruction byte) final →
        machine.EnteredByAddress program syscalls options ∨
          machine.FailsInSyscall program syscalls (.invalidInstruction byte)

/-- The verification does not look at the targets of calls, nor at the entry. -/
theorem directTransfers_of_verify {program : Program} (hbuilt : program.Built)
    (hverify : program.verify = .ok ()) : program.DirectTransfers := by
  have hformed := hbuilt.wellFormed
  refine ⟨?_, ?_, ?_, ?_⟩
  · intro pc htarget
    exact Machine.start_or_second_of_isDirectTarget hformed hverify htarget
  · intro pc slot hfetch
    rw [slot?_eq_read? hformed] at hfetch
    exact mem_instructionStarts_iff hverify hfetch
  · intro syscalls machine meter hsecond hcharge
    exact Machine.step_of_isSecondSlot hformed hverify hsecond hcharge
  · intro hstarts syscalls options machine byte final hreach hstep
    exact Machine.enteredByAddress_of_invalidInstruction hformed hstarts hreach hstep

/-- A text that calls into a constant: `call +1`, `lddw r1, 0`, `exit`. -/
def callsIntoConstant : ByteArray :=
  encodeText [.new 0x85 0 0 0 1, .new 0x18 1 0 0 0, .new 0 0 0 0 0, .new 0x95 0 0 0 0]

/-- It is accepted and verified, and its call goes to the second slot of the constant. -/
theorem exists_ofText_callsIntoConstant :
    ∃ program slot, ofText callsIntoConstant = .ok program ∧ program.verify = .ok () ∧
      IsSecondSlot program.textBytes 2 ∧ program.slot? program.entryPc = some slot ∧
      Opcode.ofByte? slot.opcode = some .call ∧ program.functions.slot? slot.uimm = some 2 := by
  obtain ⟨program, hprogram⟩ : ∃ program, ofText callsIntoConstant = .ok program :=
    exists_ofText (by decide) (by decide) (by decide) (by decide +kernel)
  have hbytes : program.textBytes =
      (callsOf callsIntoConstant).foldl (RelativeCall.write { start := 0, stop := 32 })
        callsIntoConstant := by
    rw [textBytes_of_ofText hprogram, image_of_ofText hprogram]
    rfl
  have hread : Slot.read? callsIntoConstant 0 = some (.new 0x85 0 0 0 1) := by decide +kernel
  obtain ⟨target, htarget, -, hfetch, hfunction⟩ :=
    slot?_of_callDistance? hprogram hread (show _ = some 1 by decide)
  obtain rfl : target = 2 := by omega
  refine ⟨program, (Slot.new 0x85 0 0 0 1).withImm (CallHash.ofSlot 2), hprogram, ?_, ?_, ?_, ?_,
    ?_⟩
  · rw [verify, hbytes]
    decide +kernel
  · rw [hbytes]
    exact ⟨1, by decide +kernel, .new 0x18 1 0 0 0, by decide +kernel, by decide +kernel, rfl⟩
  · rw [(start_of_ofText hprogram).2]
    exact hfetch
  · rfl
  · rw [Slot.uimm_withImm]
    exact hfunction

/-- Transfers of a program that is entered at an instruction and has a function that is none. -/
theorem directTransfers_of_callsIntoConstant :
    ∃ program, ofText callsIntoConstant = .ok program ∧ program.DirectTransfers ∧
      program.IsDirectTarget 2 ∧ IsSecondSlot program.textBytes 2 := by
  obtain ⟨program, slot, hprogram, hverify, hsecond, -, -, hfunction⟩ :=
    exists_ofText_callsIntoConstant
  exact ⟨program, hprogram, directTransfers_of_verify (.inl ⟨_, hprogram⟩) hverify,
    .inr ⟨_, hfunction⟩, hsecond⟩

/-- Direct transfers do not all lead to starts of instructions: a verified program calls into a
constant, and its run ends there. -/
theorem callsIntoConstant_faults :
    ∃ program machine final, ofText callsIntoConstant = .ok program ∧ program.verify = .ok () ∧
      program.IsDirectTarget 2 ∧ 2 ∉ instructionStarts program.textBytes ∧
      Machine.Reachable program .empty .default machine ∧ machine.pc = 2 ∧
      machine.step program .empty = .faulted (.invalidInstruction 0) final := by
  obtain ⟨program, slot, hprogram, hverify, hsecond, hfetch, hdecoded, hfunction⟩ :=
    exists_ofText_callsIntoConstant
  have hformed := wellFormed_of_ofText hprogram
  have hboot := Machine.boot_of_verify hverify .default
  -- The call is paid for with one unit of the budget, and the slot it leads to with another.
  have hfirst : (Machine.initial program .default).meter.charge? instructionCost =
      some ⟨defaultBudget, defaultBudget - 1, by decide⟩ := rfl
  have hlater : Meter.charge? ⟨defaultBudget, defaultBudget - 1, by decide⟩ instructionCost =
      some ⟨defaultBudget, defaultBudget - 2, by decide⟩ := rfl
  have hstep := Machine.step_of_callee? hfetch hfirst
    ((Machine.callee?_of_call _ hdecoded (Registry.handler?_empty _)).trans hfunction)
  refine ⟨program, _, _, hprogram, hverify, .inr ⟨_, hfunction⟩, ?_, .next (.booted hboot) hstep,
    rfl, Machine.step_of_isSecondSlot hformed hverify hsecond hlater⟩
  exact fun hstart => not_isBoundary_of_isSecondSlot hverify hsecond (.inl hstart)

end Program

end SbfMachine
