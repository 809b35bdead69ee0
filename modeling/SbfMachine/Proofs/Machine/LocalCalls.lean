import SbfMachine.Proofs.Machine.Frames
import SbfMachine.Proofs.Program.Constants
import SbfMachine.Proofs.Program.LocalCalls

/-!
# Running calls of the functions of a text

In a text, a call of a local function says how far away the function is. What the machine executes
is a call by hash, which first asks whether a system call has that hash and then looks it up in the
function table; and a function can be called by its address as well. All of these come to the same:
the function that the text names is entered, with a frame that returns behind the call.

## Main definitions

- `Machine.entering` — what entering a function comes to
- `Program.SameSlots` — two texts that occupy the same addresses
- `Machine.LocalCall` — the ways to call the function at a slot

## Main statements

- `Machine.enter_eq_entering` — entering a function
- `Machine.step_of_callAddress`, `Machine.step_of_callOutside` — calling an address
- `Machine.localCall_of_ofText` — the ways to call a function agree with the text

## Design notes

A text that calls the function by its address is another text, and the memory shows the program
its own text. So the two calls are compared in machines that have everything but the memory in
common.
-/

namespace SbfMachine

/-- The same outcome with another memory. -/
def Outcome.withMemory (memory : Memory) : Outcome → Outcome
  | .running machine => .running { machine with memory }
  | .exited value machine => .exited value { machine with memory }
  | .faulted fault machine => .faulted fault { machine with memory }

/-- The slots of two programs have the same addresses. -/
structure Program.SameSlots (program other : Program) : Prop where
  textAddress : other.textAddress = program.textAddress
  slotCount : other.slotCount = program.slotCount

/-- Bare texts of the same size have the same addresses. -/
theorem Program.sameSlots_of_ofText {text text' : ByteArray} {program other : Program}
    (hprogram : ofText text = .ok program) (hother : ofText text' = .ok other)
    (hsize : text'.size = text.size) : program.SameSlots other where
  textAddress := by
    rw [Program.textAddress, Program.textAddress, text_of_ofText hprogram, text_of_ofText hother]
  slotCount := by rw [slotCount_of_ofText hprogram, slotCount_of_ofText hother, hsize]

namespace Machine

/-- The function at slot `target` is entered with a frame that saves the registers of the caller and
returns behind the call, unless all frames are in use. -/
def entering (machine : Machine) (target : Nat) : Outcome :=
  let framePointer := machine.calls.framePointer + 2 * UInt64.ofNat frameSize
  if machine.calls.depth = maxCallDepth then .faulted .callDepthExceeded machine
  else
    .running
      { machine with
        calls :=
          { current :=
              { framePointer, saved := machine.registers.saved, returnPc := machine.pc + 1 }
            callers := machine.calls.frames }
        registers := machine.registers.set framePointerRegister framePointer
        pc := target }

/-- The ways to call the function at slot `target`, where `meter` is what is left when the call has
been paid for. -/
structure LocalCall (program : Program) (syscalls : Registry) (machine : Machine) (meter : Meter)
    (target : Nat) : Prop where
  inside : target < program.slotCount
  /-- The call in the text enters the function, unless its hash is that of a system call. -/
  relative : syscalls.handler? (CallHash.ofSlot target) = none →
    step program syscalls machine = entering { machine with meter } target
  /-- So does a call through a register that holds its address. -/
  byAddress : ∀ other registry memory slot, program.SameSlots other →
    other.slot? machine.pc = some slot → Opcode.ofByte? slot.opcode = some .callRegister →
      (machine.registers.get slot.uimm.toNat).toNat =
          program.textAddress.toNat + slotSize * target →
        step other registry { machine with memory } =
          (entering { machine with meter } target).withMemory memory
  /-- A call through a register that holds no address of a slot does nothing. -/
  outside : ∀ other registry memory slot, program.SameSlots other →
    other.slot? machine.pc = some slot → Opcode.ofByte? slot.opcode = some .callRegister →
      (∀ place < program.slotCount, (machine.registers.get slot.uimm.toNat).toNat ≠
          program.textAddress.toNat + slotSize * place) →
        step other registry { machine with memory } =
          .faulted (.callOutsideText (machine.registers.get slot.uimm.toNat))
            { machine with memory, meter }

-- ════════════════════════════════════════════════════════════════════════
-- Entering functions
-- ════════════════════════════════════════════════════════════════════════

/-- As there are never more frames than there may be, a function is entered unless all are in
use. -/
theorem enter_eq_entering (machine : Machine) (target : Nat)
    (hdepth : machine.calls.depth ≤ maxCallDepth) :
    machine.enter target = machine.entering target := by
  rw [enter, entering, CallStack.push?]
  by_cases hfull : machine.calls.depth = maxCallDepth
  · rw [if_pos hfull, if_neg (Nat.not_lt.2 (Nat.le_of_eq hfull.symm))]
  · rw [if_neg hfull, if_pos (Nat.lt_of_le_of_ne hdepth hfull)]
    rfl

theorem entering_withMemory (machine : Machine) (memory : Memory) (target : Nat) :
    entering { machine with memory } target = (machine.entering target).withMemory memory := by
  rw [entering, entering]
  split <;> rfl

/-- The call of an address is paid for and then looks for a slot there. -/
theorem step_of_callAddress {program : Program} {syscalls : Registry} {machine : Machine}
    {slot : Slot} {meter : Meter} (hfetch : program.slot? machine.pc = some slot)
    (hdecoded : Opcode.ofByte? slot.opcode = some .callRegister)
    (hcharge : machine.meter.charge? instructionCost = some meter) :
    step program syscalls machine = callAddress program (machine.registers.get slot.uimm.toNat)
      { machine with meter } := by
  simp only [step, hfetch, hcharge, execute, hdecoded]

theorem callAddress_of_slot {program : Program} {address : UInt64} {target : Nat}
    (machine : Machine) (htarget : target < program.slotCount)
    (haddress : address.toNat = program.textAddress.toNat + slotSize * target) :
    callAddress program address machine = machine.enter target := by
  rw [callAddress, Program.slotOfAddress?_eq_some_iff.2 ⟨htarget, haddress⟩]

theorem callAddress_of_no_slot {program : Program} {address : UInt64} (machine : Machine)
    (h : ∀ place < program.slotCount,
      address.toNat ≠ program.textAddress.toNat + slotSize * place) :
    callAddress program address machine = .faulted (.callOutsideText address) machine := by
  have hnone : program.slotOfAddress? address = none := by
    rw [Option.eq_none_iff_forall_ne_some]
    intro target htarget
    obtain ⟨hinside, haddress⟩ := Program.slotOfAddress?_eq_some_iff.1 htarget
    exact h target hinside haddress
  rw [callAddress, hnone]

-- ════════════════════════════════════════════════════════════════════════
-- Calls of a text
-- ════════════════════════════════════════════════════════════════════════

/-- Once it is paid for, a call that the function table knows enters its function. -/
theorem localCall_of_function {program : Program} {syscalls : Registry} {machine : Machine}
    {slot : Slot} {meter : Meter} {target : Nat} (hdepth : machine.calls.depth ≤ maxCallDepth)
    (hinside : target < program.slotCount) (hfetch : program.slot? machine.pc = some slot)
    (hdecoded : Opcode.ofByte? slot.opcode = some .call)
    (hhash : slot.uimm = CallHash.ofSlot target)
    (hfunction : program.functions.slot? (CallHash.ofSlot target) = some target)
    (hcharge : machine.meter.charge? instructionCost = some meter) :
    LocalCall program syscalls machine meter target where
  inside := hinside
  relative hhandler := by
    rw [← hhash] at hhandler hfunction
    have hcallee := (callee?_of_call machine hdecoded hhandler).trans hfunction
    rw [step_of_callee? hfetch hcharge hcallee,
      enter_eq_entering { machine with meter } target hdepth]
  byAddress other registry memory called hsame hcalled hdecoded' haddress := by
    rw [← hsame.textAddress] at haddress
    rw [← hsame.slotCount] at hinside
    have hstep : step other registry { machine with memory } =
        callAddress other (machine.registers.get called.uimm.toNat)
          { machine with memory, meter } :=
      step_of_callAddress hcalled hdecoded' hcharge
    rw [hstep, callAddress_of_slot _ hinside haddress,
      enter_eq_entering { machine with memory, meter } target hdepth, ← entering_withMemory]
  outside other registry memory called hsame hcalled hdecoded' haddress := by
    rw [← hsame.textAddress, ← hsame.slotCount] at haddress
    have hstep : step other registry { machine with memory } =
        callAddress other (machine.registers.get called.uimm.toNat)
          { machine with memory, meter } :=
      step_of_callAddress hcalled hdecoded' hcharge
    rw [hstep, callAddress_of_no_slot _ haddress]

/-- All ways to call a function of a text agree with the text. -/
theorem localCall_of_ofText {text : ByteArray} {program : Program} {syscalls : Registry}
    {options : Options} {machine : Machine} {slot : Slot}
    (hprogram : Program.ofText text = .ok program)
    (hreach : Reachable program syscalls options machine)
    (hread : Slot.read? text machine.pc = some slot) (hopcode : slot.opcode = Opcode.call.toByte)
    (hsrc : slot.src.val = 0) (himm : slot.imm.toInt ≠ -1)
    (hpaid : 1 ≤ machine.meter.remaining.toNat) :
    ∃ (target : Nat) (meter : Meter), (target : Int) = machine.pc + 1 + slot.imm.toInt ∧
      meter.limit = machine.meter.limit ∧
      meter.remaining.toNat + 1 = machine.meter.remaining.toNat ∧
      LocalCall program syscalls machine meter target := by
  have hcall : slot.callDistance? = some slot.imm.toInt := by
    rw [Slot.callDistance?, if_pos ⟨hopcode, hsrc, himm⟩]
  obtain ⟨target, htarget, hinside, hfetch, hfunction⟩ :=
    Program.slot?_of_callDistance? hprogram hread hcall
  have hcost : instructionCost.toNat = 1 := rfl
  obtain ⟨meter, hcharge⟩ : ∃ meter, machine.meter.charge? instructionCost = some meter := by
    rw [← Option.ne_none_iff_exists', Ne, Meter.charge?_eq_none_iff, hcost]
    exact Nat.not_lt.2 hpaid
  have hframed := hreach.framed (Program.wellFormed_of_ofText hprogram)
  obtain ⟨hlimit, hremaining⟩ := Meter.charge?_eq_some hcharge
  rw [hcost] at hremaining
  refine ⟨target, meter, htarget, hlimit, hremaining, ?_⟩
  refine localCall_of_function hframed.depth_le hinside hfetch ?_ (Slot.uimm_withImm slot _)
    hfunction hcharge
  rw [Slot.opcode_withImm, hopcode, Opcode.ofByte?_toByte]

/-- A text that calls a function and has its address in a register: `lddw r1, 0x100000020`,
`call +1`, `exit`, and the function, which is `exit`. -/
def callsForward : ByteArray :=
  encodeText
    [.new 0x18 1 0 0 0x20, .new 0 0 0 0 1, .new 0x85 0 0 0 1, .new 0x95 0 0 0 0,
      .new 0x95 0 0 0 0]

/-- The call of this text and the call through the register lead to the same state. -/
theorem localCall_of_callsForward :
    ∃ program machine next, Program.ofText callsForward = .ok program ∧
      Reachable program .empty .default machine ∧ machine.pc = 2 ∧
      step program .empty machine = .running next ∧
      ∀ memory, step callsFunction .empty { machine with memory } =
        .running { next with memory } := by
  obtain ⟨program, hprogram⟩ : ∃ program, Program.ofText callsForward = .ok program :=
    Program.exists_ofText (by decide) (by decide) (by decide) (by decide +kernel)
  have hverify : program.verify = .ok () := by
    rw [Program.verify, Program.textBytes_of_ofText hprogram, Program.image_of_ofText hprogram]
    decide +kernel
  have hboot := boot_of_verify hverify .default
  have hentry : (initial program .default).pc = 0 := (Program.start_of_ofText hprogram).2
  have hfirst : program.slot? 0 = some (.new 0x18 1 0 0 0x20) :=
    Program.slot?_of_not_call hprogram (by decide +kernel) (by decide)
  have hsecond : program.slot? 1 = some (.new 0 0 0 0 1) :=
    Program.slot?_of_not_call hprogram (by decide +kernel) (by decide)
  -- The first instruction leaves the address of the function in `r1`.
  let paid : Machine :=
    { initial program .default with meter := ⟨defaultBudget, defaultBudget - 1, by decide⟩ }
  let machine := paid.assign 1 0x100000020 2
  have hstep : step program .empty (initial program .default) = .running machine := by
    obtain ⟨slot, hfetch, hexecute⟩ := Program.loadsAt_of_wide hfirst hsecond rfl
    rw [← hentry] at hfetch
    have hcharge : (initial program .default).meter.charge? instructionCost = some paid.meter := rfl
    rw [step]
    simp only [hfetch, hcharge]
    exact hexecute .empty paid hentry
  have hreach : Reachable program .empty .default machine := .next (.booted hboot) hstep
  have hread : Slot.read? callsForward 2 = some (.new 0x85 0 0 0 1) := by decide +kernel
  obtain ⟨target, meter, htarget, -, -, hcall⟩ := localCall_of_ofText hprogram hreach hread
    (by decide) (by decide) (by decide) (show 1 ≤ (defaultBudget - 1).toNat by decide)
  obtain rfl : target = 4 := by
    have hplace : (target : Int) = 4 := htarget
    omega
  have hrelative := hcall.relative (Registry.handler?_empty _)
  have hsame : program.SameSlots callsFunction :=
    Program.sameSlots_of_ofText hprogram (show Program.ofText callsFunction.image = _ from rfl)
      (by decide)
  have haddress : (machine.registers.get 1).toNat = program.textAddress.toNat + slotSize * 4 := by
    rw [← hsame.textAddress, show machine.registers.get 1 = 0x100000020 from
      (Registers.get_set ..).trans (if_pos (by decide))]
    decide
  have hroom : ¬machine.calls.depth = maxCallDepth := show ¬1 = 64 by decide
  obtain ⟨next, hnext⟩ : ∃ next, entering { machine with meter } 4 = .running next := by
    rw [entering, if_neg hroom]
    exact ⟨_, rfl⟩
  have hcalled : callsFunction.slot? 2 = some (.new 0x8d 0 0 0 1) := by decide +kernel
  refine ⟨program, machine, next, hprogram, hreach, rfl, hrelative.trans hnext, fun memory => ?_⟩
  rw [hcall.byAddress callsFunction .empty memory _ hsame hcalled rfl haddress, hnext,
    Outcome.withMemory]

end Machine

end SbfMachine
