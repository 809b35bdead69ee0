import SbfMachine.Proofs.Machine.ControlFlow
import SbfMachine.Proofs.Memory.Cells

/-!
# The frames of the stack

The layout of the stack is written down three times: in the frames of the call stack, in the frame
pointer register and in the way stack addresses are located. In a verified program the three agree
in every state, because no instruction but calls and returns writes the frame pointer register.

## Main definitions

- `Machine.Framed` — the frames lie where their depths say
- `Machine.StackLayout` — the stack memory of the running function
- `Machine.FrameLaws` — how steps treat the stack

## Main statements

- `Machine.Framed.step` — a step leaves the frames in order
- `Machine.frameLaws_of_reachable` — the stack is in order in every state of an execution
-/

namespace SbfMachine

def Window.Disjoint (first second : Window) : Prop :=
  first.region ≠ second.region ∨ first.start + first.size ≤ second.start ∨
    second.start + second.size ≤ first.start

/-- The bytes behind the frame at a depth. -/
def frameWindow (depth : Nat) : Window where
  region := .stack
  start := (depth - 1) * frameSize
  size := frameSize

/-- The end of the frame at a depth: between two frames there is a gap. -/
def frameEnd (depth : Nat) : Nat :=
  stackBase.toNat + frameSize + (depth - 1) * (2 * frameSize)

theorem frameWindow_disjoint {depth other : Nat} (hdepth : 1 ≤ depth) (hother : 1 ≤ other)
    (hne : depth ≠ other) : (frameWindow depth).Disjoint (frameWindow other) := by
  right
  simp only [frameWindow, frameSize]
  omega

/-- The bytes of a frame are found below its end. -/
theorem locate_frame (memory : Memory) {pointer : UInt64} {depth : Nat} (hdepth : 1 ≤ depth)
    (hlast : depth ≤ maxCallDepth) (hpointer : pointer.toNat = frameEnd depth) :
    memory.locate (pointer - UInt64.ofNat frameSize) frameSize true = .ok (frameWindow depth) := by
  have hbase : stackBase.toNat = 0x200000000 := rfl
  have hstart : (pointer - UInt64.ofNat frameSize).toNat =
      0x200000000 + (depth - 1) * 0x2000 := by
    rw [UInt64.toNat_sub_of_le, hpointer, frameEnd, hbase]
    · simp only [frameSize, UInt64.reduceOfNat, UInt64.reduceToNat]
      omega
    · rw [UInt64.le_iff_toNat_le, hpointer, frameEnd, hbase]
      simp only [frameSize, UInt64.reduceOfNat, UInt64.reduceToNat]
      omega
  simp only [maxCallDepth] at hlast
  rw [Memory.locate_eq_ok_iff]
  refine ⟨?_, ?_, ?_, rfl⟩
  · rw [Region.ofAddress?_eq_some_iff, hstart]
    simp only [frameWindow, Region.base, hbase]
    omega
  · rw [hstart]
    simp only [frameWindow, Memory.locateIn]
    rw [Memory.locateInStack_eq_ok_iff]
    simp only [frameSize, maxCallDepth]
    omega
  · simp only [frameWindow, Memory.bytes, memory.size_stack, frameSize, maxCallDepth]
    omega

/-- At the end of a frame there is a gap. -/
theorem locate_gap (memory : Memory) {pointer : UInt64} {depth : Nat}
    (hlast : depth ≤ maxCallDepth) (hpointer : pointer.toNat = frameEnd depth) (size : Nat)
    (write : Bool) : memory.locate pointer size write = .error .stackGap := by
  have hbase : stackBase.toNat = 0x200000000 := rfl
  simp only [maxCallDepth] at hlast
  simp only [frameEnd, frameSize, hbase] at hpointer
  have hregion : Region.ofAddress? pointer = some .stack := by
    rw [Region.ofAddress?_eq_some_iff, hpointer, Region.base, hbase]
    omega
  have hodd : (pointer - Region.stack.base).toNat / frameSize % 2 = 1 := by
    rw [Region.toNat_sub_base hregion, hpointer, frameSize]
    omega
  simp only [Memory.locate, hregion, Memory.locateIn, Memory.locateInStack, if_pos hodd]

namespace Machine

/-- Every frame of a list, the innermost first, ends where its depth says. -/
def Stacked : List Frame → Prop
  | [] => True
  | frame :: callers =>
    frame.framePointer.toNat = frameEnd (callers.length + 1) ∧ Stacked callers

/-- The frames are in order, and the frame pointer register holds the end of the current one. -/
structure Framed (machine : Machine) : Prop where
  depth_le : machine.calls.depth ≤ maxCallDepth
  stacked : Stacked machine.calls.frames
  register : machine.registers.get framePointerRegister = machine.calls.framePointer

theorem Framed.toNat_framePointer {machine : Machine} (h : Framed machine) :
    machine.calls.framePointer.toNat = frameEnd machine.calls.depth :=
  h.stacked.1

-- ════════════════════════════════════════════════════════════════════════
-- Calls and returns
-- ════════════════════════════════════════════════════════════════════════

/-- Entering a function puts its frame where the next depth says. -/
theorem stacked_of_push? {stack pushed : CallStack} {saved : SavedRegisters} {returnPc : Nat}
    (hstacked : Stacked stack.frames) (h : stack.push? saved returnPc = some pushed) :
    pushed.depth ≤ maxCallDepth ∧ Stacked pushed.frames := by
  obtain ⟨hroom, hframes⟩ := CallStack.frames_of_push? h
  have hdepth := CallStack.depth_of_push? h
  refine ⟨by omega, ?_⟩
  rw [hframes]
  refine ⟨?_, hstacked⟩
  have hend : stack.framePointer.toNat = frameEnd stack.depth := hstacked.1
  have hbase : stackBase.toNat = 0x200000000 := rfl
  have hpos : 1 ≤ stack.depth := Nat.succ_pos _
  rw [UInt64.toNat_add, hend, CallStack.length_frames]
  simp only [frameEnd, hbase, frameSize, maxCallDepth] at hroom ⊢
  simp only [UInt64.reduceOfNat, UInt64.reduceMul, UInt64.reduceToNat]
  omega

theorem stacked_of_pop? {stack popped : CallStack} {frame : Frame}
    (hstacked : Stacked stack.frames) (h : stack.pop? = some (frame, popped)) :
    popped.depth + 1 = stack.depth ∧ Stacked popped.frames := by
  rw [CallStack.frames_of_pop? h] at hstacked
  exact ⟨CallStack.depth_of_pop? h, hstacked.2⟩

-- ════════════════════════════════════════════════════════════════════════
-- One step
-- ════════════════════════════════════════════════════════════════════════

section Step

variable {program : Program} (hformed : program.WellFormed) (hverify : program.verify = .ok ())
  {syscalls : Registry} {machine : Machine}

theorem get_framePointer_set (registers : Registers) (value : UInt64) :
    (registers.set framePointerRegister value).get framePointerRegister = value := by
  rw [Registers.get_set, if_pos ⟨rfl, by decide⟩]

/-- Writing another register leaves the frame pointer register alone. -/
theorem get_framePointer_set_of_lt (registers : Registers) {register : Nat} (value : UInt64)
    (hregister : register < framePointerRegister) :
    (registers.set register value).get framePointerRegister =
      registers.get framePointerRegister := by
  rw [Registers.get_set, if_neg]
  rintro ⟨rfl, _⟩
  exact Nat.lt_irrefl _ hregister

include hformed hverify

/-- Only stores may name the frame pointer register as their destination, and they do not write
it. -/
theorem dst_lt_of_ordinary {pc : Nat} {slot : Slot} {opcode : Opcode}
    (hfetch : program.slot? pc = some slot) (hdecoded : Opcode.ofByte? slot.opcode = some opcode)
    (hordinary : opcode.isStore = false) : slot.dst.val < framePointerRegister := by
  obtain ⟨_, _, hdst, _⟩ := checked_of_decoded hformed hverify hfetch hdecoded
  rw [maxDestination, hordinary] at hdst
  exact Nat.lt_succ_of_le hdst

/-- An instruction enters a function, returns from one, or leaves the frames and the frame pointer
register alone. -/
theorem Effect.frames {slot : Slot} {outcome : Outcome}
    (hfetch : program.slot? machine.pc = some slot)
    (heffect : Effect program syscalls slot machine outcome) :
    (∃ target calls, machine.callee? program syscalls slot = some target ∧
        machine.calls.push? machine.registers.saved (machine.pc + slot.length) = some calls ∧
        outcome.machine.calls = calls ∧
        outcome.machine.registers.get framePointerRegister = calls.framePointer) ∨
      (∃ frame calls, Opcode.ofByte? slot.opcode = some .exit ∧
        machine.calls.pop? = some (frame, calls) ∧ outcome.machine.calls = calls ∧
        outcome.machine.registers.get framePointerRegister = calls.framePointer) ∨
      (outcome.machine.calls = machine.calls ∧
        outcome.machine.registers.get framePointerRegister =
          machine.registers.get framePointerRegister) := by
  cases heffect with
  | enter target callee calls pushed =>
    left
    exact ⟨target, calls, callee, pushed, rfl, get_framePointer_set ..⟩
  | leave decoded frame calls popped =>
    right; left
    exact ⟨frame, calls, decoded, popped, rfl, get_framePointer_set ..⟩
  | assign opcode decoded ordinary value =>
    right; right
    have hdst := dst_lt_of_ordinary hformed hverify hfetch decoded ordinary
    exact ⟨rfl, get_framePointer_set_of_lt machine.registers value hdst⟩
  | syscall _ _ _ value =>
    right; right
    exact ⟨rfl, get_framePointer_set_of_lt machine.registers value (by decide)⟩
  | store | skip | jump | finish | unknown | incomplete | refused | undivided | failed | tooDeep
  | undefined | outside => exact .inr (.inr ⟨rfl, rfl⟩)

theorem Effect.framed {slot : Slot} {outcome : Outcome} (hframed : Framed machine)
    (hfetch : program.slot? machine.pc = some slot)
    (heffect : Effect program syscalls slot machine outcome) : Framed outcome.machine := by
  rcases heffect.frames hformed hverify hfetch with
    ⟨target, calls, _, hpushed, hcalls, hregister⟩ | ⟨frame, calls, _, hpopped, hcalls, hregister⟩ |
    ⟨hcalls, hregister⟩
  · obtain ⟨hdepth, hstacked⟩ := stacked_of_push? hframed.stacked hpushed
    rw [← hcalls] at hdepth hstacked hregister
    exact ⟨hdepth, hstacked, hregister⟩
  · obtain ⟨hdepth, hstacked⟩ := stacked_of_pop? hframed.stacked hpopped
    rw [← hcalls] at hdepth hstacked hregister
    have hbound := hframed.depth_le
    exact ⟨by omega, hstacked, hregister⟩
  · refine ⟨?_, ?_, ?_⟩
    · rw [hcalls]
      exact hframed.depth_le
    · rw [hcalls]
      exact hframed.stacked
    · rw [hcalls, hregister]
      exact hframed.register

theorem Framed.step (hframed : Framed machine) :
    Framed (step program syscalls machine).machine := by
  apply step_keeps hframed
  intro slot meter outcome hfetch heffect
  have hpaid : Framed { machine with meter } :=
    ⟨hframed.depth_le, hframed.stacked, hframed.register⟩
  exact heffect.framed hformed hverify hpaid hfetch

/-- A step that neither calls a function nor returns from one does not move the frame pointer. -/
theorem framePointer_of_step {slot : Slot} (hfetch : program.slot? machine.pc = some slot)
    (hcallee : machine.callee? program syscalls slot = none)
    (hexit : Opcode.ofByte? slot.opcode ≠ some .exit) :
    (Machine.step program syscalls machine).machine.registers.get framePointerRegister =
      machine.registers.get framePointerRegister := by
  apply step_keeps (P := fun after => after.registers.get framePointerRegister =
    machine.registers.get framePointerRegister) rfl
  intro other meter outcome hother heffect
  obtain rfl : slot = other := Option.some.inj (hfetch.symm.trans hother)
  have hpaid : program.slot? ({ machine with meter } : Machine).pc = some slot := hfetch
  rcases heffect.frames hformed hverify hpaid with
    ⟨_, _, hentered, _⟩ | ⟨_, _, hdecoded, _⟩ | ⟨_, hregister⟩
  · exact absurd (hcallee.symm.trans hentered) (Option.some_ne_none _).symm
  · exact absurd hdecoded hexit
  · exact hregister

end Step

theorem framed_initial (program : Program) (options : Options) (status : Status) :
    Framed ((initial program options).withStatus status) := by
  refine ⟨?_, ⟨?_, trivial⟩, get_framePointer_set ..⟩
  · show 1 ≤ maxCallDepth
    decide
  · show initialFramePointer.toNat = frameEnd 1
    decide

theorem Reachable.framed {program : Program} {syscalls : Registry} {options : Options}
    {machine : Machine} (hformed : program.WellFormed)
    (h : Reachable program syscalls options machine) : Framed machine := by
  apply h.invariant
  · intro _ status
    exact framed_initial program options status
  · intro before hverify hbefore
    exact hbefore.step hformed hverify

-- ════════════════════════════════════════════════════════════════════════
-- The stack of a verified program
-- ════════════════════════════════════════════════════════════════════════

/-- The stack memory of the running function. -/
structure StackLayout (machine : Machine) : Prop where
  depth_pos : 1 ≤ machine.calls.depth
  depth_le : machine.calls.depth ≤ maxCallDepth
  register : machine.registers.get framePointerRegister = machine.calls.framePointer
  framePointer : machine.calls.framePointer.toNat = frameEnd machine.calls.depth
  /-- The bytes below the frame pointer can be written, and are those of the frame. -/
  window : machine.memory.window
      (machine.registers.get framePointerRegister - UInt64.ofNat frameSize) frameSize true =
    .ok (frameWindow machine.calls.depth)
  /-- No access begins at the frame pointer. -/
  gap : ∀ size write,
    machine.memory.window (machine.registers.get framePointerRegister) size write =
      .error (.accessViolation (machine.registers.get framePointerRegister) size write .stackGap)
  /-- At another depth neither the addresses nor the bytes behind them are the same. -/
  disjoint : ∀ depth, 1 ≤ depth → depth ≠ machine.calls.depth →
    (frameEnd machine.calls.depth ≤ frameEnd depth - frameSize ∨
        frameEnd depth ≤ frameEnd machine.calls.depth - frameSize) ∧
      (frameWindow machine.calls.depth).Disjoint (frameWindow depth)

theorem Framed.stackLayout {machine : Machine} (h : Framed machine) : StackLayout machine := by
  have hpos : 1 ≤ machine.calls.depth := Nat.succ_pos _
  have hend := h.toNat_framePointer
  refine ⟨hpos, h.depth_le, h.register, hend, ?_, ?_, ?_⟩
  · rw [h.register, Memory.window, locate_frame machine.memory hpos h.depth_le hend]
  · intro size write
    rw [h.register, Memory.window, locate_gap machine.memory h.depth_le hend]
  · intro depth hdepth hne
    refine ⟨?_, frameWindow_disjoint hpos hdepth (Ne.symm hne)⟩
    simp only [frameEnd, frameSize]
    omega

/-- A call of a function that is paid for succeeds, unless all frames are in use. -/
theorem step_of_call {program : Program} {syscalls : Registry} {machine : Machine}
    {slot : Slot} {meter : Meter} {target : Nat} (hframed : Framed machine)
    (hfetch : program.slot? machine.pc = some slot)
    (hcharge : machine.meter.charge? instructionCost = some meter)
    (hcallee : machine.callee? program syscalls slot = some target) :
    (machine.calls.depth = maxCallDepth ∧
        step program syscalls machine = .faulted .callDepthExceeded { machine with meter }) ∨
      (machine.calls.depth < maxCallDepth ∧
        ∃ next, step program syscalls machine = .running next) := by
  have hbound := hframed.depth_le
  rw [step_of_callee? hfetch hcharge hcallee, enter]
  cases hpushed : machine.calls.push? machine.registers.saved (machine.pc + 1) with
  | none =>
    have hfull := CallStack.push?_eq_none_iff.1 hpushed
    exact .inl ⟨Nat.le_antisymm hbound hfull, rfl⟩
  | some calls =>
    obtain ⟨hroom, _⟩ := CallStack.frames_of_push? hpushed
    exact .inr ⟨hroom, _, rfl⟩

/-- How the steps of a verified program treat the stack. -/
structure FrameLaws (program : Program) (syscalls : Registry) (machine : Machine) : Prop where
  layout : StackLayout machine
  /-- The stack is in order after the next step as well, also where that ends the run. -/
  after : StackLayout (step program syscalls machine).machine
  /-- Only calls of functions and returns move the frame pointer. -/
  keeps : ∀ slot, program.slot? machine.pc = some slot →
    machine.callee? program syscalls slot = none → Opcode.ofByte? slot.opcode ≠ some .exit →
      (step program syscalls machine).machine.registers.get framePointerRegister =
        machine.registers.get framePointerRegister
  /-- A call of a function that is paid for fails iff all frames are in use. -/
  tooDeep : ∀ slot meter target, program.slot? machine.pc = some slot →
    machine.meter.charge? instructionCost = some meter →
      machine.callee? program syscalls slot = some target →
        ((∃ final, step program syscalls machine = .faulted .callDepthExceeded final) ↔
            machine.calls.depth = maxCallDepth) ∧
          ∀ final, step program syscalls machine = .faulted .callDepthExceeded final →
            final.calls = machine.calls ∧ final.registers = machine.registers

/-- Whatever a verified program does, its stack stays in order. -/
theorem frameLaws_of_reachable {program : Program} {syscalls : Registry} {options : Options}
    {machine : Machine} (hbuilt : program.Built)
    (h : Reachable program syscalls options machine) : FrameLaws program syscalls machine := by
  have hformed := hbuilt.wellFormed
  have hverify := h.verified
  have hframed := h.framed hformed
  refine ⟨hframed.stackLayout, (hframed.step hformed hverify).stackLayout, ?_, ?_⟩
  · intro slot hfetch hcallee hexit
    exact framePointer_of_step hformed hverify hfetch hcallee hexit
  · intro slot meter target hfetch hcharge hcallee
    rcases step_of_call hframed hfetch hcharge hcallee with ⟨hdepth, hstep⟩ | ⟨hdepth, next, hstep⟩
    · rw [hstep]
      refine ⟨⟨fun _ => hdepth, fun _ => ⟨_, rfl⟩⟩, ?_⟩
      intro final hfinal
      obtain ⟨_, rfl⟩ := Outcome.faulted.inj hfinal
      exact ⟨rfl, rfl⟩
    · rw [hstep]
      refine ⟨⟨?_, ?_⟩, ?_⟩
      · rintro ⟨final, hfinal⟩
        cases hfinal
      · intro hfull
        omega
      · intro final hfinal
        cases hfinal

/-- A program that calls a function and returns: `lddw r1, 0x100000020`, `callx r1`, `exit`, and
the function, which is `exit`. -/
def callsFunction : Program where
  image := encodeText
    [.new 0x18 1 0 0 0x20, .new 0 0 0 0 1, .new 0x8d 0 0 0 1, .new 0x95 0 0 0 0,
      .new 0x95 0 0 0 0]
  text := { start := 0, stop := 40 }
  entryPc := 0
  functions := .empty
  sbfV2 := false

theorem callsFunction_built : callsFunction.Built :=
  .inl ⟨callsFunction.image, rfl⟩

theorem callsFunction_boots :
    boot callsFunction .default = .ok (initial callsFunction .default) :=
  boot_of_verify (by decide +kernel) .default

/-- Inside a function, its frame is the second one. -/
theorem frameLaws_of_callsFunction :
    callsFunction.Built ∧ ∃ machine, Reachable callsFunction .empty .default machine ∧
      machine.calls.depth = 2 ∧ FrameLaws callsFunction .empty machine := by
  let called := after callsFunction .empty (initial callsFunction .default) 2
  have hrun : runFor callsFunction .empty 2 (initial callsFunction .default) = .running called := by
    rfl
  have hreach : Reachable callsFunction .empty .default called :=
    Reachable.of_runFor (.booted callsFunction_boots) hrun
  exact ⟨callsFunction_built, called, hreach, rfl,
    frameLaws_of_reachable callsFunction_built hreach⟩

end Machine

end SbfMachine
