import SbfMachine.Proofs.Machine.Frames

/-!
# Calls return

Whatever a function does, while it runs the frames of its callers lie untouched below its own. So
when the call stack is for the first time as high again as at the call, the function has returned:
control is behind the call, and the registers that belong to the caller are as they were.

## Main definitions

- `Machine.Suspended` — a caller waits for a function to return
- `Machine.Resumed` — the caller goes on
- `Machine.CallBalance` — the laws of calls and returns

## Main statements

- `Machine.Suspended.step` — a step leaves a caller waiting or lets it go on
- `Machine.Suspended.after` — so does a run, up to the first return
- `Machine.callBalance` — calls and returns are balanced in all executions
-/

namespace SbfMachine

namespace Machine

/-- `caller` waits for the function that it called: the frame of that function, which says where and
how `caller` goes on, lies on the frames of `caller`. -/
def Suspended (caller machine : Machine) : Prop :=
  ∃ inner callee, machine.calls.frames = inner ++ callee :: caller.calls.frames ∧
    callee.saved = caller.registers.saved ∧ callee.returnPc = caller.pc + 1

/-- `caller` goes on behind its call, with its own frames and registers. -/
structure Resumed (caller machine : Machine) : Prop where
  pc : machine.pc = caller.pc + 1
  calls : machine.calls = caller.calls
  registers : ∀ register, 6 ≤ register → register ≤ framePointerRegister →
    machine.registers.get register = caller.registers.get register

theorem Suspended.depth_lt {caller machine : Machine} (h : Suspended caller machine) :
    caller.calls.depth < machine.calls.depth := by
  obtain ⟨inner, callee, hframes, _⟩ := h
  have hlength := congrArg List.length hframes
  rw [List.length_append, List.length_cons, CallStack.length_frames,
    CallStack.length_frames] at hlength
  omega

-- ════════════════════════════════════════════════════════════════════════
-- One step
-- ════════════════════════════════════════════════════════════════════════

/-- Returning restores the registers that belong to the caller. -/
theorem get_restore (registers before : Registers) {register : Nat} (hlow : 6 ≤ register)
    (hhigh : register < framePointerRegister) :
    (registers.restore before.saved).get register = before.get register := by
  have hcases : register = 6 ∨ register = 7 ∨ register = 8 ∨ register = 9 := by
    simp only [framePointerRegister] at hhigh
    omega
  rcases hcases with rfl | rfl | rfl | rfl <;>
    simp [Registers.restore, Registers.get_set, Registers.saved, registerCount]

section Step

variable {program : Program} {syscalls : Registry} {caller machine : Machine}

theorem Effect.suspends {slot : Slot} {outcome : Outcome}
    (heffect : Effect program syscalls slot caller outcome)
    (hdepth : outcome.machine.calls.depth = caller.calls.depth + 1) :
    Suspended caller outcome.machine := by
  cases heffect with
  | enter _ callee calls pushed =>
    obtain ⟨_, hframes⟩ := CallStack.frames_of_push? pushed
    refine ⟨[], _, hframes, rfl, ?_⟩
    have hlength : slot.length = 1 := by
      apply Slot.length_of_not_wide
      intro hwide
      rcases call_of_callee? callee with ⟨hcall, _⟩ | ⟨hcall, _⟩ <;>
        exact absurd (hwide.symm.trans hcall) (by decide)
    rw [hlength]
  | leave _ frame calls popped =>
    have hshallower := CallStack.depth_of_pop? popped
    have hdepth : calls.depth = caller.calls.depth + 1 := hdepth
    omega
  | assign | store | skip | jump | syscall | finish | unknown | incomplete | refused | undivided
  | failed | tooDeep | undefined | outside => exact absurd hdepth.symm (Nat.succ_ne_self _)

theorem Effect.resumes {slot : Slot} {outcome : Outcome} (hcaller : Framed caller)
    (hsuspended : Suspended caller machine)
    (heffect : Effect program syscalls slot machine outcome) :
    Suspended caller outcome.machine ∨ Resumed caller outcome.machine := by
  obtain ⟨inner, callee, hframes, hsaved, hreturn⟩ := hsuspended
  cases heffect with
  | enter _ _ calls pushed =>
    left
    obtain ⟨_, hpushed⟩ := CallStack.frames_of_push? pushed
    rw [hframes] at hpushed
    exact ⟨_ :: inner, callee, hpushed, hsaved, hreturn⟩
  | leave _ frame calls popped =>
    have hpopped := CallStack.frames_of_pop? popped
    rw [hframes] at hpopped
    cases inner with
    | nil =>
      -- The frame on top is the one that the caller waits for.
      right
      obtain ⟨rfl, hcallers⟩ := List.cons.inj hpopped
      have hcalls : calls = caller.calls := CallStack.frames_injective hcallers.symm
      refine ⟨hreturn, hcalls, ?_⟩
      intro register hlow hhigh
      show (Registers.set _ framePointerRegister _).get register = _
      rcases Nat.lt_or_eq_of_le hhigh with hlt | rfl
      · rw [Registers.get_set, if_neg fun h => Nat.ne_of_gt hlt h.1, hsaved,
          get_restore _ _ hlow hlt]
      · rw [get_framePointer_set, hcalls, hcaller.register]
    | cons top inner =>
      left
      exact ⟨inner, callee, (List.cons.inj hpopped).2.symm, hsaved, hreturn⟩
  | assign | store | skip | jump | syscall | finish | unknown | incomplete | refused | undivided
  | failed | tooDeep | undefined | outside =>
    left
    exact ⟨inner, callee, hframes, hsaved, hreturn⟩

/-- A step that enters a function suspends its caller. -/
theorem suspended_of_step {entered : Machine}
    (hstep : step program syscalls caller = .running entered)
    (hdepth : entered.calls.depth = caller.calls.depth + 1) : Suspended caller entered := by
  have heffect := step_effect program syscalls caller
  rw [hstep] at heffect
  cases heffect with
  | paid slot fetched meter _ _ effect => exact effect.suspends hdepth

/-- A step leaves a caller waiting, or lets it go on. -/
theorem Suspended.step (hcaller : Framed caller) (h : Suspended caller machine) :
    Suspended caller (step program syscalls machine).machine ∨
      Resumed caller (Machine.step program syscalls machine).machine := by
  apply step_keeps (P := fun after => Suspended caller after ∨ Resumed caller after) (.inl h)
  intro slot meter outcome _ heffect
  have hpaid : Suspended caller { machine with meter } := h
  exact heffect.resumes hcaller hpaid

end Step

-- ════════════════════════════════════════════════════════════════════════
-- Whole runs
-- ════════════════════════════════════════════════════════════════════════

/-- Going on until the call stack is as high again as at the call, a caller waits; then it goes
on. -/
theorem Suspended.after {program : Program} {syscalls : Registry} {caller machine : Machine}
    (hcaller : Framed caller) (h : Suspended caller machine) (count : Nat)
    (hfirst : ∀ earlier < count,
      (after program syscalls machine earlier).calls.depth ≠ caller.calls.depth) :
    Suspended caller (Machine.after program syscalls machine count) ∨
      Resumed caller (Machine.after program syscalls machine count) := by
  induction count with
  | zero => exact .inl h
  | succ count ih =>
    rcases ih fun earlier hearlier => hfirst earlier (Nat.lt_succ_of_lt hearlier) with
      hsuspended | hresumed
    · have hnext := @after_succ program syscalls machine count
      rcases hnext with ⟨last, _, hlast, hafter⟩ | hafter
      · rw [hafter, hlast]
        exact hsuspended.step hcaller
      · rw [hafter]
        exact .inl hsuspended
    · have hdepth := congrArg CallStack.depth hresumed.calls
      exact absurd hdepth (hfirst count (Nat.lt_succ_self count))

-- ════════════════════════════════════════════════════════════════════════
-- The end of a run
-- ════════════════════════════════════════════════════════════════════════

section Exits

variable {program : Program} {syscalls : Registry} {options : Options} {machine final : Machine}
  {value : UInt64}

/-- Only an `exit` of the entry function ends a run with a value, which is that of `r0`. -/
theorem exit_of_step (hstep : step program syscalls machine = .exited value final) :
    ∃ slot, program.slot? machine.pc = some slot ∧ Opcode.ofByte? slot.opcode = some .exit ∧
      machine.calls.depth = 1 ∧ value = machine.registers.get 0 := by
  have heffect := step_effect program syscalls machine
  rw [hstep] at heffect
  cases heffect with
  | paid slot fetched meter _ _ effect =>
    cases effect with
    | finish decoded last =>
      exact ⟨slot, fetched, decoded, CallStack.pop?_eq_none_iff.1 last, rfl⟩

/-- Every other `exit` leads back to a caller. -/
theorem step_of_exit {slot : Slot} {meter : Meter} (hfetch : program.slot? machine.pc = some slot)
    (hcharge : machine.meter.charge? instructionCost = some meter)
    (hdecoded : Opcode.ofByte? slot.opcode = some .exit) (hdepth : 1 < machine.calls.depth) :
    ∃ next, step program syscalls machine = .running next ∧
      next.calls.depth + 1 = machine.calls.depth := by
  cases hpopped : machine.calls.pop? with
  | none =>
    have hlast := CallStack.pop?_eq_none_iff.1 hpopped
    omega
  | some popped =>
    obtain ⟨frame, calls⟩ := popped
    simp only [step, hfetch, hcharge, execute, hdecoded, leave, hpopped]
    exact ⟨_, rfl, CallStack.depth_of_pop? hpopped⟩

/-- An execution gets to an `exit` of the entry function, which ends it with the value of `r0`, in
the state `final`. -/
def Returns (program : Program) (syscalls : Registry) (options : Options) (value : UInt64)
    (final : Machine) : Prop :=
  ∃ last slot, Reachable program syscalls options last ∧ program.slot? last.pc = some slot ∧
    Opcode.ofByte? slot.opcode = some .exit ∧ last.calls.depth = 1 ∧
      value = last.registers.get 0 ∧ step program syscalls last = .exited value final

theorem returns_of_runFor {bound : Nat} (hreach : Reachable program syscalls options machine)
    (hrun : runFor program syscalls bound machine = .exited value final) :
    Returns program syscalls options value final := by
  obtain ⟨steps, _, last, hbefore, hstep⟩ := exists_last_of_runFor_eq_exited hrun
  obtain ⟨slot, hfetch, hdecoded, hdepth, hvalue⟩ := exit_of_step hstep
  exact ⟨last, slot, hreach.of_runFor hbefore, hfetch, hdecoded, hdepth, hvalue, hstep⟩

theorem runFor_of_run (hrun : run program syscalls machine = .exited value final) :
    ∃ last, final = last.withStatus .exited ∧
      runFor program syscalls machine.stepBound (machine.withStatus .running) =
        .exited value last := by
  unfold run at hrun
  split at hrun
  · split at hrun
    · cases hrun
    · next value' last hlast =>
      obtain ⟨rfl, rfl⟩ := Outcome.exited.inj hrun
      exact ⟨last, rfl, hlast⟩
    · cases hrun
  · cases hrun

end Exits

/-- The laws of calls and returns in the executions of a program. -/
structure CallBalance (program : Program) (syscalls : Registry) (options : Options) : Prop where
  /-- When after a call the stack is as high again for the first time, the caller goes on behind the
  call, and `r6` to `r10` are as they were. -/
  resumes : ∀ caller entered count, Reachable program syscalls options caller →
    step program syscalls caller = .running entered →
      entered.calls.depth = caller.calls.depth + 1 →
        (after program syscalls entered count).calls.depth = caller.calls.depth →
          (∀ earlier < count,
            (after program syscalls entered earlier).calls.depth ≠ caller.calls.depth) →
            (after program syscalls entered count).pc = caller.pc + 1 ∧
              ∀ register, 6 ≤ register → register ≤ 10 →
                (after program syscalls entered count).registers.get register =
                  caller.registers.get register
  /-- A run, however long, returns a value only where the entry function exits. -/
  runFor : ∀ fresh bound value final, boot program options = .ok fresh →
    runFor program syscalls bound (fresh.withStatus .running) = .exited value final →
      Returns program syscalls options value final
  run : ∀ fresh value final, boot program options = .ok fresh →
    run program syscalls fresh = .exited value final →
      ∃ last, final = last.withStatus .exited ∧ Returns program syscalls options value last
  /-- An `exit` of another function never ends a run. -/
  goesOn : ∀ machine slot meter, program.slot? machine.pc = some slot →
    machine.meter.charge? instructionCost = some meter →
      Opcode.ofByte? slot.opcode = some .exit → 1 < machine.calls.depth →
        ∃ next, step program syscalls machine = .running next ∧
          next.calls.depth + 1 = machine.calls.depth

/-- Calls and returns are balanced in all executions of a verified program. -/
theorem callBalance {program : Program} (hbuilt : program.Built) (syscalls : Registry)
    (options : Options) : CallBalance program syscalls options where
  resumes caller entered count hreach hstep hdepth hagain hfirst := by
    have hcaller := hreach.framed hbuilt.wellFormed
    have hsuspended := suspended_of_step hstep hdepth
    rcases hsuspended.after hcaller count hfirst with hstill | hresumed
    · have hdeeper := hstill.depth_lt
      omega
    · exact ⟨hresumed.pc, hresumed.registers⟩
  runFor fresh bound value final hboot hrun := returns_of_runFor (.started hboot) hrun
  run fresh value final hboot hrun := by
    obtain ⟨last, hfinal, hlast⟩ := runFor_of_run hrun
    exact ⟨last, hfinal, returns_of_runFor (.started hboot) hlast⟩
  goesOn machine slot meter hfetch hcharge hdecoded hdepth :=
    step_of_exit hfetch hcharge hdecoded hdepth

/-- A function that returns at once leads back to the slot behind its call. -/
theorem callBalance_of_callsFunction :
    callsFunction.Built ∧ CallBalance callsFunction .empty .default ∧
      ∃ caller entered, Reachable callsFunction .empty .default caller ∧
        step callsFunction .empty caller = .running entered ∧
        entered.calls.depth = caller.calls.depth + 1 ∧
        (after callsFunction .empty entered 1).calls.depth = caller.calls.depth := by
  have hbalance := callBalance callsFunction_built .empty .default
  let caller := after callsFunction .empty (initial callsFunction .default) 1
  let entered := after callsFunction .empty (initial callsFunction .default) 2
  have hcaller : runFor callsFunction .empty 1 (initial callsFunction .default) =
      .running caller := by
    rfl
  have hentered : runFor callsFunction .empty 2 (initial callsFunction .default) =
      .running entered := by
    rfl
  have hstep : step callsFunction .empty caller = .running entered := by
    rw [runFor_succ, hcaller] at hentered
    exact hentered
  have hreach : Reachable callsFunction .empty .default caller :=
    Reachable.of_runFor (.booted callsFunction_boots) hcaller
  refine ⟨callsFunction_built, hbalance, caller, entered, hreach, hstep, ?_, ?_⟩
  · rfl
  · show (after callsFunction .empty (after callsFunction .empty
        (initial callsFunction .default) 2) 1).calls.depth = 1
    decide +kernel

end Machine

end SbfMachine
