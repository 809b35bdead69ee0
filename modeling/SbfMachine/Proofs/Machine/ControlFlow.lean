import SbfMachine.Proofs.Link.Loading
import SbfMachine.Proofs.Machine.Effect
import SbfMachine.Proofs.Machine.Reachable

/-!
# Where a verified program can go

The verification reads a text once, from front to back; a run jumps, calls and returns. Still a run
meets only instructions that the verification has checked, with one exception: calls, and the entry
of the program, may lead into the second slot of an instruction, where the run ends.

## Main definitions

- `Machine.Placed` — the program counter and the places to return to belong to the text
- `Machine.EnteredDirectly` — a call or the start of the execution led here
- `Machine.ControlFlow` — what the verification is for

## Main statements

- `Machine.boundary_or_callee_of_step` — a step leads to a boundary, unless it enters a function
- `Machine.Placed.step` — a step leaves everything in place
- `Machine.controlFlow_of_reachable` — the verification is sound for whole runs

## Design notes

That everything is in place is an invariant of steps; who entered a second slot is then a matter of
the last step alone. A system call of a host may fail with whatever fault it likes, so what is said
about the causes of faults excepts the faults that a system call returned.
-/

namespace SbfMachine

namespace Machine

/-- The program counter is at a boundary or at the second slot of an instruction, and every function
returns to a boundary. -/
structure Placed (program : Program) (machine : Machine) : Prop where
  pc : IsBoundary program.textBytes machine.pc ∨ IsSecondSlot program.textBytes machine.pc
  returnPc : ∀ frame ∈ machine.calls.frames, IsBoundary program.textBytes frame.returnPc

/-- The execution has not taken a step yet, or its last step called the function at the program
counter. -/
inductive EnteredDirectly (program : Program) (syscalls : Registry) (options : Options)
    (machine : Machine) : Prop
  | entry (fresh : Machine) (boots : boot program options = .ok fresh)
      (unstepped : machine = fresh ∨ machine = fresh.withStatus .running)
      (place : machine.pc = program.entryPc)
  | called (caller : Machine) (before : Reachable program syscalls options caller) (slot : Slot)
      (fetched : program.slot? caller.pc = some slot)
      (callee : caller.callee? program syscalls slot = some machine.pc)
      (stepped : step program syscalls caller = .running machine)

/-- The instruction at the program counter is a system call that fails with `fault`. -/
def FailsInSyscall (program : Program) (syscalls : Registry) (machine : Machine) (fault : Fault) :
    Prop :=
  ∃ slot meter handler context, program.slot? machine.pc = some slot ∧
    machine.meter.charge? instructionCost = some meter ∧
    Opcode.ofByte? slot.opcode = some .call ∧ syscalls.handler? slot.uimm = some handler ∧
    handler machine.registers.arguments { machine.toContext with meter } = .error fault context

/-- What the verification of a program achieves in a state of an execution. -/
structure ControlFlow (program : Program) (syscalls : Registry) (options : Options)
    (machine : Machine) : Prop where
  pc_le : machine.pc ≤ program.slotCount
  /-- Functions return to the start of an instruction or to the end of the text. -/
  returnPc : ∀ frame ∈ machine.calls.frames,
    frame.returnPc ∈ instructionStarts program.textBytes ∨ frame.returnPc = program.slotCount
  /-- An instruction starts at the program counter, or a second slot was entered directly. -/
  place : machine.pc < program.slotCount →
    machine.pc ∈ instructionStarts program.textBytes ∨
      IsSecondSlot program.textBytes machine.pc ∧ EnteredDirectly program syscalls options machine
  /-- The instruction at the program counter names only registers that exist, and is complete. -/
  operands : ∀ slot opcode, program.slot? machine.pc = some slot →
    Opcode.ofByte? slot.opcode = some opcode →
      slot.dst.val < registerCount ∧ slot.src.val < registerCount ∧
        (opcode = .callRegister → slot.uimm.toNat < registerCount) ∧
        (opcode = .wide → ∃ second, program.slot? (machine.pc + 1) = some second)
  /-- A run leaves the text only at its end. -/
  pcOutOfBounds : ∀ pc final, step program syscalls machine = .faulted (.pcOutOfBounds pc) final →
    (pc = program.slotCount ∧ machine.pc = program.slotCount) ∨
      FailsInSyscall program syscalls machine (.pcOutOfBounds pc)
  /-- The only slots that hold no instruction are the second slots that are entered directly. -/
  invalidInstruction : ∀ byte final,
    step program syscalls machine = .faulted (.invalidInstruction byte) final →
      (byte = 0 ∧ IsSecondSlot program.textBytes machine.pc ∧
          EnteredDirectly program syscalls options machine) ∨
        FailsInSyscall program syscalls machine (.invalidInstruction byte)
  /-- The state after a step belongs to the text as well, also where the step ends the run. -/
  after : Placed program (step program syscalls machine).machine

-- ════════════════════════════════════════════════════════════════════════
-- Instructions of a verified program
-- ════════════════════════════════════════════════════════════════════════

section Verified

variable {program : Program} (hformed : program.WellFormed) (hverify : program.verify = .ok ())
include hformed hverify

/-- Where a slot holds an instruction, the verification has checked that instruction. -/
theorem checked_of_decoded {pc : Nat} {slot : Slot} {opcode : Opcode}
    (hfetch : program.slot? pc = some slot) (hdecoded : Opcode.ofByte? slot.opcode = some opcode) :
    pc ∈ instructionStarts program.textBytes ∧ slot.src.val ≤ framePointerRegister ∧
      slot.dst.val ≤ maxDestination opcode ∧
        checkOperands program.textBytes pc slot opcode = .ok () := by
  rw [Program.slot?_eq_read? hformed] at hfetch
  have hstart := (mem_instructionStarts_iff hverify hfetch).2 (opcode_ne_zero_of_ofByte? hdecoded)
  obtain ⟨hsrc, opcode', hdecoded', hoperands, hdst⟩ :=
    checkSlot_eq_ok_iff.1 (checkSlot_of_verify hverify hstart hfetch)
  obtain rfl : opcode = opcode' := Option.some.inj (hdecoded.symm.trans hdecoded')
  exact ⟨hstart, hsrc, hdst, hoperands⟩

theorem boundary_after_of_decoded {pc : Nat} {slot : Slot} {opcode : Opcode}
    (hfetch : program.slot? pc = some slot) (hdecoded : Opcode.ofByte? slot.opcode = some opcode) :
    IsBoundary program.textBytes (pc + slot.length) := by
  obtain ⟨hstart, _⟩ := checked_of_decoded hformed hverify hfetch hdecoded
  rw [Program.slot?_eq_read? hformed] at hfetch
  exact boundary_after_of_verify hverify hstart hfetch

theorem landing_of_decoded {machine : Machine} {slot : Slot} {opcode : Opcode}
    (hfetch : program.slot? machine.pc = some slot)
    (hdecoded : Opcode.ofByte? slot.opcode = some opcode) (hjump : opcode.isJump = true) :
    machine.landing slot ∈ instructionStarts program.textBytes := by
  obtain ⟨hstart, _⟩ := checked_of_decoded hformed hverify hfetch hdecoded
  rw [Program.slot?_eq_read? hformed] at hfetch
  obtain ⟨hlow, htarget⟩ := jumpTarget_of_verify hverify hstart hfetch hdecoded hjump
  have hlanding : machine.landing slot = (jumpTarget machine.pc slot).toNat := by
    rw [landing, if_neg (Int.not_lt.2 hlow)]
  rw [hlanding]
  exact htarget

theorem exists_second_of_decoded {pc : Nat} {slot : Slot} (hfetch : program.slot? pc = some slot)
    (hdecoded : Opcode.ofByte? slot.opcode = some .wide) :
    ∃ second, program.slot? (pc + 1) = some second := by
  obtain ⟨_, _, _, hoperands⟩ := checked_of_decoded hformed hverify hfetch hdecoded
  obtain ⟨second, hsecond, _⟩ := exists_second_of_checkOperands hoperands
  refine ⟨second, ?_⟩
  rw [Program.slot?_eq_read? hformed, hsecond]

/-- A slot that holds no instruction is the second slot of one. -/
theorem second_of_not_decoded {pc : Nat} {slot : Slot} (hfetch : program.slot? pc = some slot)
    (hdecoded : Opcode.ofByte? slot.opcode = none) :
    slot.opcode = 0 ∧ IsSecondSlot program.textBytes pc := by
  rw [Program.slot?_eq_read? hformed] at hfetch
  have hinside := Slot.lt_slotsOf_of_read? hfetch
  rcases start_or_second_of_verify hverify hinside with hstart | hsecond
  · obtain ⟨_, opcode, hopcode, _⟩ :=
      checkSlot_eq_ok_iff.1 (checkSlot_of_verify hverify hstart hfetch)
    rw [hopcode] at hdecoded
    cases hdecoded
  · obtain ⟨other, hother, hzero⟩ := opcode_of_isSecondSlot hverify hsecond
    obtain rfl : slot = other := Option.some.inj (hfetch.symm.trans hother)
    exact ⟨hzero, hsecond⟩

theorem start_or_second_of_callee? {syscalls : Registry} {machine : Machine} {slot : Slot}
    {target : Nat} (hcallee : machine.callee? program syscalls slot = some target) :
    target ∈ instructionStarts program.textBytes ∨ IsSecondSlot program.textBytes target := by
  apply start_or_second_of_verify hverify
  rw [hformed.slotsOf_textBytes]
  rcases call_of_callee? hcallee with ⟨_, _, hslot⟩ | ⟨_, haddress⟩
  · exact (hformed.functions_within _ _ hslot).2
  · exact (Program.slotOfAddress?_eq_some_iff.1 haddress).1

-- ════════════════════════════════════════════════════════════════════════
-- One step
-- ════════════════════════════════════════════════════════════════════════

section Step

variable {syscalls : Registry} {machine : Machine} (hplaced : Placed program machine)
include hplaced

theorem Placed.pc_le : machine.pc ≤ program.slotCount := by
  rw [← hformed.slotsOf_textBytes]
  rcases hplaced.pc with hboundary | hsecond
  · exact hboundary.le_slotsOf
  · obtain ⟨slot, hread, _⟩ := opcode_of_isSecondSlot hverify hsecond
    exact Nat.le_of_lt (Slot.lt_slotsOf_of_read? hread)

/-- An instruction leads to a boundary or to the function that it calls, and a fault stays. -/
theorem Effect.pc {slot : Slot} {outcome : Outcome} (hfetch : program.slot? machine.pc = some slot)
    (heffect : Effect program syscalls slot machine outcome) :
    match outcome with
    | .running next =>
      IsBoundary program.textBytes next.pc ∨ machine.callee? program syscalls slot = some next.pc
    | .exited _ final => IsBoundary program.textBytes final.pc
    | .faulted _ final => final.pc = machine.pc := by
  have hbehind {opcode : Opcode} (hdecoded : Opcode.ofByte? slot.opcode = some opcode) :
      IsBoundary program.textBytes (machine.pc + slot.length) :=
    boundary_after_of_decoded hformed hverify hfetch hdecoded
  cases heffect with
  | assign _ decoded | store _ decoded | skip _ decoded => exact .inl (hbehind decoded)
  | jump _ decoded jumping =>
    exact .inl (.inl (landing_of_decoded hformed hverify hfetch decoded jumping))
  | syscall decoded => exact .inl (hbehind decoded)
  | enter _ callee => exact .inr callee
  | leave _ frame calls popped =>
    -- The frame that is taken off says where to go on.
    have hframes := CallStack.frames_of_pop? popped
    have hmem : frame ∈ machine.calls.frames := by
      rw [hframes]
      exact List.mem_cons_self
    exact .inl (hplaced.returnPc frame hmem)
  | finish decoded => exact hbehind decoded
  | unknown | incomplete | refused | undivided | failed | tooDeep | undefined | outside => rfl

/-- Whatever an instruction does, all functions return to boundaries. -/
theorem Effect.returnPc {slot : Slot} {outcome : Outcome}
    (hfetch : program.slot? machine.pc = some slot)
    (heffect : Effect program syscalls slot machine outcome) :
    ∀ frame ∈ outcome.machine.calls.frames, IsBoundary program.textBytes frame.returnPc := by
  intro frame hframe
  cases heffect with
  | enter _ callee calls pushed =>
    obtain ⟨_, hframes⟩ := CallStack.frames_of_push? pushed
    rw [Outcome.machine, hframes] at hframe
    rcases List.mem_cons.1 hframe with rfl | hold
    · rcases call_of_callee? callee with ⟨decoded, _⟩ | ⟨decoded, _⟩ <;>
        exact boundary_after_of_decoded hformed hverify hfetch decoded
    · exact hplaced.returnPc frame hold
  | leave _ _ calls popped =>
    apply hplaced.returnPc frame
    rw [CallStack.frames_of_pop? popped]
    exact List.mem_cons_of_mem _ hframe
  | assign | store | skip | jump | syscall | finish | unknown | incomplete | refused | undivided
  | failed | tooDeep | undefined | outside => exact hplaced.returnPc frame hframe

/-- A step leads to a boundary, unless it enters a function. -/
theorem boundary_or_callee_of_step {next : Machine}
    (hstep : step program syscalls machine = .running next) :
    IsBoundary program.textBytes next.pc ∨ ∃ slot, program.slot? machine.pc = some slot ∧
      machine.callee? program syscalls slot = some next.pc := by
  have heffect := step_effect program syscalls machine
  rw [hstep] at heffect
  cases heffect with
  | paid slot fetched meter _ _ effect =>
    have hpaid : Placed program { machine with meter } := ⟨hplaced.pc, hplaced.returnPc⟩
    exact (effect.pc hformed hverify hpaid fetched).imp_right fun hcallee =>
      ⟨slot, fetched, hcallee⟩

theorem Placed.step : Placed program (step program syscalls machine).machine := by
  apply step_keeps hplaced
  intro slot meter outcome hfetch heffect
  have hpaid : Placed program { machine with meter } := ⟨hplaced.pc, hplaced.returnPc⟩
  have hpc := heffect.pc hformed hverify hpaid hfetch
  refine ⟨?_, heffect.returnPc hformed hverify hpaid hfetch⟩
  cases outcome with
  | running next =>
    rcases hpc with hboundary | hcallee
    · exact .inl hboundary
    · exact (start_or_second_of_callee? hformed hverify hcallee).imp_left .inl
  | exited => exact .inl hpc
  | faulted _ final =>
    have hpc : final.pc = machine.pc := hpc
    rw [Outcome.machine, hpc]
    exact hplaced.pc

/-- A step finds no slot only at the end of the text. -/
theorem pc_of_pcOutOfBounds {pc : Nat} {final : Machine}
    (hstep : Machine.step program syscalls machine = .faulted (.pcOutOfBounds pc) final) :
    (pc = program.slotCount ∧ machine.pc = program.slotCount) ∨
      FailsInSyscall program syscalls machine (.pcOutOfBounds pc) := by
  have heffect := step_effect program syscalls machine
  rw [hstep] at heffect
  cases heffect with
  | unfetched missing =>
    rw [Program.slot?_eq_read? hformed, Slot.read?_eq_none_iff,
      hformed.slotsOf_textBytes] at missing
    have hpc := Nat.le_antisymm (hplaced.pc_le hformed hverify) missing
    exact .inl ⟨hpc, hpc⟩
  | paid slot fetched meter charged _ effect =>
    cases effect with
    | incomplete decoded missing =>
      obtain ⟨second, hsecond⟩ := exists_second_of_decoded hformed hverify fetched decoded
      exact absurd (missing.symm.trans hsecond) (Option.some_ne_none _).symm
    | undivided _ division => rcases division with h | h <;> cases h
    | failed decoded handler found _ context raised =>
      exact .inr ⟨slot, meter, handler, context, fetched, charged, decoded, found, raised⟩

omit hplaced in
/-- A step finds no instruction only at a second slot. -/
theorem byte_of_invalidInstruction {byte : UInt8} {final : Machine}
    (hstep : Machine.step program syscalls machine = .faulted (.invalidInstruction byte) final) :
    (byte = 0 ∧ IsSecondSlot program.textBytes machine.pc) ∨
      FailsInSyscall program syscalls machine (.invalidInstruction byte) := by
  have heffect := step_effect program syscalls machine
  rw [hstep] at heffect
  cases heffect with
  | paid slot fetched meter charged _ effect =>
    cases effect with
    | unknown decoded => exact .inl (second_of_not_decoded hformed hverify fetched decoded)
    | undivided _ division => rcases division with h | h <;> cases h
    | failed decoded handler found _ context raised =>
      exact .inr ⟨slot, meter, handler, context, fetched, charged, decoded, found, raised⟩

end Step

-- ════════════════════════════════════════════════════════════════════════
-- Whole runs
-- ════════════════════════════════════════════════════════════════════════

/-- A machine that has not taken a step is at the entry of the program. -/
theorem placed_initial (options : Options) (status : Status) :
    Placed program ((initial program options).withStatus status) := by
  have hentry : program.entryPc < slotsOf program.textBytes := by
    rw [hformed.slotsOf_textBytes]
    exact hformed.entryPc_lt
  refine ⟨(start_or_second_of_verify hverify hentry).imp_left .inl, ?_⟩
  intro frame hframe
  obtain rfl : frame = CallStack.entryFrame := List.mem_singleton.1 hframe
  exact .inl (zero_mem_instructionStarts hverify)

section Reachable

variable {syscalls : Registry} {options : Options} {machine : Machine}

omit hverify in
theorem Reachable.placed (h : Reachable program syscalls options machine) :
    Placed program machine := by
  apply h.invariant
  · intro hverify status
    exact placed_initial hformed hverify options status
  · intro before hverify hbefore
    exact hbefore.step hformed hverify

omit hverify in
/-- Where the program counter is not at a boundary, a call or the start of the execution led. -/
theorem Reachable.boundary_or_entered (h : Reachable program syscalls options machine) :
    IsBoundary program.textBytes machine.pc ∨
      EnteredDirectly program syscalls options machine := by
  cases h with
  | booted boots =>
    obtain ⟨_, rfl⟩ := boot_eq_ok boots
    exact .inr (.entry _ boots (.inl rfl) rfl)
  | started boots =>
    obtain ⟨_, rfl⟩ := boot_eq_ok boots
    exact .inr (.entry _ boots (.inr rfl) rfl)
  | @next caller _ before stepped =>
    rcases boundary_or_callee_of_step hformed before.verified (before.placed hformed) stepped with
      hboundary | ⟨slot, hfetch, hcallee⟩
    · exact .inl hboundary
    · exact .inr (.called caller before slot hfetch hcallee stepped)

end Reachable

end Verified

/-- The verification is sound: whatever a verified program does, in every state of its executions
control flow is as the verification foresaw it. -/
theorem controlFlow_of_reachable {program : Program} {syscalls : Registry} {options : Options}
    {machine : Machine} (hbuilt : program.Built)
    (h : Reachable program syscalls options machine) :
    ControlFlow program syscalls options machine := by
  have hformed := hbuilt.wellFormed
  have hverify := h.verified
  have hplaced := h.placed hformed
  have hentered := h.boundary_or_entered hformed
  have hcount := hformed.slotsOf_textBytes
  have hdirect (hsecond : IsSecondSlot program.textBytes machine.pc) :
      EnteredDirectly program syscalls options machine :=
    hentered.resolve_left (not_isBoundary_of_isSecondSlot hverify hsecond)
  refine
    { pc_le := hplaced.pc_le hformed hverify
      returnPc := ?_
      place := ?_
      operands := ?_
      pcOutOfBounds := fun pc final hstep => pc_of_pcOutOfBounds hformed hverify hplaced hstep
      invalidInstruction := ?_
      after := hplaced.step hformed hverify }
  · intro frame hframe
    rw [← hcount]
    exact hplaced.returnPc frame hframe
  · intro hinside
    rw [← hcount] at hinside
    exact (start_or_second_of_verify hverify hinside).imp_right fun h => ⟨h, hdirect h⟩
  · intro slot opcode hfetch hdecoded
    obtain ⟨_, hsrc, hdst, hoperands⟩ := checked_of_decoded hformed hverify hfetch hdecoded
    refine ⟨Nat.lt_of_le_of_lt hdst (maxDestination_lt opcode), Nat.lt_succ_of_le hsrc, ?_, ?_⟩
    · rintro rfl
      exact Nat.lt_of_le_of_lt (register_of_checkOperands hoperands) (by decide)
    · rintro rfl
      exact exists_second_of_decoded hformed hverify hfetch hdecoded
  · intro byte final hstep
    exact (byte_of_invalidInstruction hformed hverify hstep).imp_left fun h =>
      ⟨h.1, h.2, hdirect h.2⟩

/-- A program that calls the address of a second slot: `lddw r1, 0x100000008`, `callx r1`,
`exit`. -/
def callsSecondSlot : Program where
  image := encodeText
    [.new 0x18 1 0 0 8, .new 0 0 0 0 1, .new 0x8d 0 0 0 1, .new 0x95 0 0 0 0]
  text := { start := 0, stop := 32 }
  entryPc := 0
  functions := .empty
  sbfV2 := false

/-- An execution that has reached a second slot, where control flow is as foreseen too. -/
theorem controlFlow_of_callsSecondSlot :
    callsSecondSlot.Built ∧ ∃ machine, Reachable callsSecondSlot .empty .default machine ∧
      machine.pc = 1 ∧ ControlFlow callsSecondSlot .empty .default machine := by
  have hbuilt : callsSecondSlot.Built := .inl ⟨callsSecondSlot.image, rfl⟩
  have hverify : callsSecondSlot.verify = .ok () := by decide +kernel
  have hboot : boot callsSecondSlot .default = .ok (initial callsSecondSlot .default) := by
    rw [boot, hverify]
  let called := after callsSecondSlot .empty (initial callsSecondSlot .default) 2
  have hrun : runFor callsSecondSlot .empty 2 (initial callsSecondSlot .default) =
      .running called := by
    rfl
  have hreach : Reachable callsSecondSlot .empty .default called :=
    Reachable.of_runFor (.booted hboot) hrun
  exact ⟨hbuilt, called, hreach, rfl, controlFlow_of_reachable hbuilt hreach⟩

end Machine

end SbfMachine
