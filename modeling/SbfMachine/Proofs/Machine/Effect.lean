import SbfMachine.Machine.Trace
import SbfMachine.Proofs.Program.Split

/-!
# What a step can do

All instructions together have few effects. This module says once what they are and proves that
nothing else happens; what holds along a run is then a matter of these cases.

## Main definitions

- `Machine.callee?` — the function that an instruction calls
- `Machine.Effect` — the effects of an instruction
- `Machine.StepEffect` — the effects of a step

## Main statements

- `Machine.execute_effect`, `Machine.step_effect` — instructions and steps have no other effects
- `Machine.step_of_callee?` — a step at a call of a function enters it
-/

namespace SbfMachine

theorem Registry.handler?_empty (hash : UInt32) : empty.handler? hash = none := by
  simp [handler?, empty]

namespace Machine

theorem landing_congr (machine : Machine) {slot other : Slot} (h : slot.off = other.off) :
    machine.landing slot = machine.landing other := by
  rw [landing, landing, jumpTarget, jumpTarget, h]

/-- The function that the instruction in `slot` calls: by its hash, unless that is the hash of a
system call, or by its address. -/
def callee? (program : Program) (syscalls : Registry) (machine : Machine) (slot : Slot) :
    Option Nat :=
  match Opcode.ofByte? slot.opcode with
  | some .call =>
    match syscalls.handler? slot.uimm with
    | some _ => none
    | none => program.functions.slot? slot.uimm
  | some .callRegister => program.slotOfAddress? (machine.registers.get slot.uimm.toNat)
  | _ => none

theorem call_of_callee? {program : Program} {syscalls : Registry} {machine : Machine} {slot : Slot}
    {target : Nat} (h : machine.callee? program syscalls slot = some target) :
    (Opcode.ofByte? slot.opcode = some .call ∧ syscalls.handler? slot.uimm = none ∧
        program.functions.slot? slot.uimm = some target) ∨
      (Opcode.ofByte? slot.opcode = some .callRegister ∧
        program.slotOfAddress? (machine.registers.get slot.uimm.toNat) = some target) := by
  unfold callee? at h
  split at h
  · next decoded =>
    split at h
    · cases h
    · next hhandler => exact .inl ⟨decoded, hhandler, h⟩
  · next decoded => exact .inr ⟨decoded, h⟩
  · cases h

/-- A call by a hash that no system call has is a call of the function with that hash. -/
theorem callee?_of_call {program : Program} {syscalls : Registry} {slot : Slot} (machine : Machine)
    (decoded : Opcode.ofByte? slot.opcode = some .call)
    (hhandler : syscalls.handler? slot.uimm = none) :
    machine.callee? program syscalls slot = program.functions.slot? slot.uimm := by
  rw [callee?, decoded]
  simp only [hhandler]

theorem callee?_of_callRegister {program : Program} {syscalls : Registry} {slot : Slot}
    (machine : Machine) (decoded : Opcode.ofByte? slot.opcode = some .callRegister) :
    machine.callee? program syscalls slot =
      program.slotOfAddress? (machine.registers.get slot.uimm.toNat) := by
  rw [callee?, decoded]

/-- What carrying out the instruction in `slot` can lead to. -/
inductive Effect (program : Program) (syscalls : Registry) (slot : Slot) (machine : Machine) :
    Outcome → Prop
  | assign (opcode : Opcode) (decoded : Opcode.ofByte? slot.opcode = some opcode)
      (ordinary : opcode.isStore = false) (value : UInt64) :
      Effect program syscalls slot machine
        (.running (machine.assign slot.dst value (machine.pc + slot.length)))
  | store (opcode : Opcode) (decoded : Opcode.ofByte? slot.opcode = some opcode)
      (storing : opcode.isStore = true) (window : Window) (value : UInt64) :
      Effect program syscalls slot machine
        (.running { machine with
          memory := machine.memory.store window value
          pc := machine.pc + slot.length })
  | skip (opcode : Opcode) (decoded : Opcode.ofByte? slot.opcode = some opcode)
      (jumping : opcode.isJump = true) :
      Effect program syscalls slot machine (.running (machine.goto (machine.pc + slot.length)))
  | jump (opcode : Opcode) (decoded : Opcode.ofByte? slot.opcode = some opcode)
      (jumping : opcode.isJump = true) :
      Effect program syscalls slot machine (.running (machine.goto (machine.landing slot)))
  /-- A system call returns. -/
  | syscall (decoded : Opcode.ofByte? slot.opcode = some .call) (handler : Handler)
      (found : syscalls.handler? slot.uimm = some handler) (value : UInt64) (context : Context)
      (returned : handler machine.registers.arguments machine.toContext = .ok value context) :
      Effect program syscalls slot machine
        (.running { machine with
          toContext := context
          registers := machine.registers.set 0 value
          pc := machine.pc + slot.length })
  /-- A function is entered. -/
  | enter (target : Nat) (callee : machine.callee? program syscalls slot = some target)
      (calls : CallStack)
      (pushed :
        machine.calls.push? machine.registers.saved (machine.pc + slot.length) = some calls) :
      Effect program syscalls slot machine
        (.running { machine with
          calls
          registers := machine.registers.set framePointerRegister calls.framePointer
          pc := target })
  /-- A function returns to its caller. -/
  | leave (decoded : Opcode.ofByte? slot.opcode = some .exit) (frame : Frame) (calls : CallStack)
      (popped : machine.calls.pop? = some (frame, calls)) :
      Effect program syscalls slot machine
        (.running { machine with
          calls
          registers :=
            (machine.registers.restore frame.saved).set framePointerRegister calls.framePointer
          pc := frame.returnPc })
  | finish (decoded : Opcode.ofByte? slot.opcode = some .exit)
      (last : machine.calls.pop? = none) :
      Effect program syscalls slot machine
        (.exited (machine.registers.get 0) (machine.goto (machine.pc + slot.length)))
  | unknown (decoded : Opcode.ofByte? slot.opcode = none) :
      Effect program syscalls slot machine (.faulted (.invalidInstruction slot.opcode) machine)
  /-- The second slot of the instruction is missing. -/
  | incomplete (decoded : Opcode.ofByte? slot.opcode = some .wide)
      (missing : program.slot? (machine.pc + 1) = none) :
      Effect program syscalls slot machine (.faulted (.pcOutOfBounds (machine.pc + 1)) machine)
  /-- The memory refuses an access. -/
  | refused (address : UInt64) (size : Nat) (write : Bool) (refusal : Refusal) :
      Effect program syscalls slot machine
        (.faulted (.accessViolation address size write refusal) machine)
  /-- A division has no result. -/
  | undivided (fault : Fault) (division : fault = .divideByZero ∨ fault = .divideOverflow) :
      Effect program syscalls slot machine (.faulted fault machine)
  /-- A system call fails. -/
  | failed (decoded : Opcode.ofByte? slot.opcode = some .call) (handler : Handler)
      (found : syscalls.handler? slot.uimm = some handler) (fault : Fault) (context : Context)
      (raised : handler machine.registers.arguments machine.toContext = .error fault context) :
      Effect program syscalls slot machine (.faulted fault { machine with toContext := context })
  /-- There is no frame left for the function that is called. -/
  | tooDeep (target : Nat) (callee : machine.callee? program syscalls slot = some target)
      (full : machine.calls.push? machine.registers.saved (machine.pc + slot.length) = none) :
      Effect program syscalls slot machine (.faulted .callDepthExceeded machine)
  /-- The hash that is called means nothing. -/
  | undefined (decoded : Opcode.ofByte? slot.opcode = some .call) :
      Effect program syscalls slot machine (.faulted (.unknownCallTarget slot.uimm) machine)
  /-- The address that is called is not the start of a slot. -/
  | outside (decoded : Opcode.ofByte? slot.opcode = some .callRegister) :
      Effect program syscalls slot machine
        (.faulted (.callOutsideText (machine.registers.get slot.uimm.toNat)) machine)

/-- What a step can lead to. -/
inductive StepEffect (program : Program) (syscalls : Registry) (machine : Machine) :
    Outcome → Prop
  /-- There is no slot at the program counter. -/
  | unfetched (missing : program.slot? machine.pc = none) :
      StepEffect program syscalls machine (.faulted (.pcOutOfBounds machine.pc) machine)
  | unpaid (slot : Slot) (fetched : program.slot? machine.pc = some slot)
      (broke : machine.meter.charge? instructionCost = none) :
      StepEffect program syscalls machine (.faulted .outOfCompute machine)
  /-- The instruction is carried out. -/
  | paid (slot : Slot) (fetched : program.slot? machine.pc = some slot) (meter : Meter)
      (charged : machine.meter.charge? instructionCost = some meter) (outcome : Outcome)
      (effect : Effect program syscalls slot { machine with meter } outcome) :
      StepEffect program syscalls machine outcome

-- ════════════════════════════════════════════════════════════════════════
-- Instructions
-- ════════════════════════════════════════════════════════════════════════

/-- Arithmetic fails only where a division has no result. -/
theorem division_of_eval_eq_error {op : AluOp} {width : AluWidth} {a b : UInt64} {fault : Fault}
    (h : op.eval width a b = .error fault) : fault = .divideByZero ∨ fault = .divideOverflow := by
  cases width <;> cases op <;> simp only [AluOp.eval, AluOp.eval32, AluOp.eval64] at h
  all_goals grind

section Execute

variable {program : Program} {syscalls : Registry} {machine : Machine} {slot : Slot}

theorem enter_effect {target : Nat} (hlength : slot.length = 1)
    (hcallee : machine.callee? program syscalls slot = some target) :
    Effect program syscalls slot machine (machine.enter target) := by
  unfold enter
  rw [← hlength]
  cases hpushed : machine.calls.push? machine.registers.saved (machine.pc + slot.length) with
  | none => exact .tooDeep target hcallee hpushed
  | some calls => exact .enter target hcallee calls hpushed

theorem call_effect (hlength : slot.length = 1)
    (decoded : Opcode.ofByte? slot.opcode = some .call) :
    Effect program syscalls slot machine (machine.call program syscalls slot.uimm) := by
  unfold call
  cases hhandler : syscalls.handler? slot.uimm with
  | some handler =>
    cases hresult : handler machine.registers.arguments machine.toContext with
    | ok value context =>
      simp only [invoke, hresult]
      rw [← hlength]
      exact .syscall decoded handler hhandler value context hresult
    | error fault context =>
      simpa only [invoke, hresult] using
        Effect.failed decoded handler hhandler fault context hresult
  | none =>
    cases hslot : program.functions.slot? slot.uimm with
    | some target =>
      exact enter_effect hlength ((callee?_of_call machine decoded hhandler).trans hslot)
    | none => exact .undefined decoded

theorem callAddress_effect (hlength : slot.length = 1)
    (decoded : Opcode.ofByte? slot.opcode = some .callRegister) :
    Effect program syscalls slot machine
      (machine.callAddress program (machine.registers.get slot.uimm.toNat)) := by
  unfold callAddress
  cases hslot : program.slotOfAddress? (machine.registers.get slot.uimm.toNat) with
  | some target =>
    exact enter_effect hlength ((callee?_of_callRegister machine decoded).trans hslot)
  | none => exact .outside decoded

theorem leave_effect (hlength : slot.length = 1)
    (decoded : Opcode.ofByte? slot.opcode = some .exit) :
    Effect program syscalls slot machine machine.leave := by
  unfold leave
  rw [← hlength]
  cases hpopped : machine.calls.pop? with
  | none => exact .finish decoded hpopped
  | some popped => exact .leave decoded popped.1 popped.2 hpopped

/-- The instruction at a call of a function does nothing but enter it. -/
theorem execute_of_callee? {target : Nat}
    (hcallee : machine.callee? program syscalls slot = some target) :
    execute program syscalls slot machine = machine.enter target := by
  unfold execute
  rcases call_of_callee? hcallee with ⟨decoded, hhandler, hslot⟩ | ⟨decoded, hslot⟩
  · simp only [decoded, call, hhandler, hslot]
  · simp only [decoded, callAddress, hslot]

/-- Instructions have no other effects than those listed. -/
theorem execute_effect :
    Effect program syscalls slot machine (execute program syscalls slot machine) := by
  unfold execute
  cases decoded : Opcode.ofByte? slot.opcode with
  | none => exact .unknown decoded
  | some opcode =>
    by_cases hwide : opcode = .wide
    · subst hwide
      have hlength := Slot.length_of_wide decoded
      dsimp only
      cases hsecond : program.slot? (machine.pc + 1) with
      | none => exact .incomplete decoded hsecond
      | some second =>
        have hnext : machine.pc + 1 + 1 = machine.pc + slot.length := by rw [hlength]
        rw [hnext]
        exact .assign .wide decoded rfl (Slot.wideImmediate slot.uimm second.uimm)
    · have hlength : slot.length = 1 := Slot.length_of_not_wide fun h =>
        hwide (Option.some.inj (decoded.symm.trans h))
      rw [← hlength]
      cases opcode with
      | wide => exact absurd rfl hwide
      | load width =>
        dsimp only
        cases hread : machine.memory.readWord width
            (machine.registers.get slot.src + slot.displacement) with
        | ok value => exact .assign _ decoded rfl value
        | error fault =>
          obtain ⟨refusal, rfl⟩ :=
            Memory.exists_refusal_of_window (Memory.readWord_eq_error_iff.1 hread)
          exact .refused _ _ _ refusal
      | store width form =>
        dsimp only
        cases hwindow : machine.memory.window (machine.registers.get slot.dst + slot.displacement)
            width.bytes true with
        | ok window => exact .store _ decoded rfl window _
        | error fault =>
          obtain ⟨refusal, rfl⟩ := Memory.exists_refusal_of_window hwindow
          exact .refused _ _ _ refusal
      | alu width op form =>
        dsimp only
        cases heval : op.eval width (machine.registers.get slot.dst)
            (machine.operand slot (slot.aluImmediate width op) form) with
        | ok value => exact .assign _ decoded rfl value
        | error fault => exact .undivided fault (division_of_eval_eq_error heval)
      | neg width => exact .assign _ decoded rfl _
      | swap order => exact .assign _ decoded rfl _
      | jump => exact .jump _ decoded rfl
      | branch condition form =>
        dsimp only
        split
        · exact .jump _ decoded rfl
        · exact .skip _ decoded rfl
      | call => exact call_effect hlength decoded
      | callRegister => exact callAddress_effect hlength decoded
      | exit => exact leave_effect hlength decoded

end Execute

-- ════════════════════════════════════════════════════════════════════════
-- Steps
-- ════════════════════════════════════════════════════════════════════════

/-- Steps have no other effects than those listed. -/
theorem step_effect (program : Program) (syscalls : Registry) (machine : Machine) :
    StepEffect program syscalls machine (step program syscalls machine) := by
  unfold step
  cases hfetch : program.slot? machine.pc with
  | none => exact .unfetched hfetch
  | some slot =>
    cases hcharge : machine.meter.charge? instructionCost with
    | none => exact .unpaid slot hfetch hcharge
    | some meter => exact .paid slot hfetch meter hcharge _ execute_effect

/-- A step keeps what is true already and what every instruction makes true. -/
theorem step_keeps {program : Program} {syscalls : Registry} {machine : Machine}
    {P : Machine → Prop} (hbefore : P machine)
    (hpaid : ∀ slot meter outcome, program.slot? machine.pc = some slot →
      Effect program syscalls slot { machine with meter } outcome → P outcome.machine) :
    P (step program syscalls machine).machine := by
  have heffect := step_effect program syscalls machine
  generalize step program syscalls machine = outcome at heffect ⊢
  cases heffect with
  | unfetched | unpaid => exact hbefore
  | paid slot fetched meter _ _ effect => exact hpaid slot meter outcome fetched effect

/-- Once it is paid for, a call of a function enters it. -/
theorem step_of_callee? {program : Program} {syscalls : Registry} {machine : Machine} {slot : Slot}
    {meter : Meter} {target : Nat} (hfetch : program.slot? machine.pc = some slot)
    (hcharge : machine.meter.charge? instructionCost = some meter)
    (hcallee : machine.callee? program syscalls slot = some target) :
    step program syscalls machine = ({ machine with meter } : Machine).enter target := by
  simp only [step, hfetch, hcharge]
  exact execute_of_callee? hcallee

end Machine

end SbfMachine
