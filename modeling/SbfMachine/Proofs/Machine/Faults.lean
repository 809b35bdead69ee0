import SbfMachine.Proofs.Machine.Metering
import SbfMachine.Proofs.Syscall.Failures

/-!
# Instructions that fail

An instruction that fails has no effect. It is paid for, as far as the budget goes, but neither
registers nor memory, neither the call stack nor the log show that it was tried, and the machine
still stands at it when the run has ended.

## Main definitions

- `Machine.Spared` — the state is as before, except that some of the budget may have been spent

## Main statements

- `Machine.spared_of_step` — a step that fails spares the state
- `Machine.Reachable.exists_run` — a machine that is running has been reached in a run
- `Machine.fault_without_effect` — a run that fails leaves the state before its last instruction
-/

namespace SbfMachine

namespace Machine

/-- The state is the same, except that some of the budget may have been spent. -/
structure Spared (before after : Machine) : Prop where
  registers : after.registers = before.registers
  pc : after.pc = before.pc
  /-- All frames are as they were. -/
  calls : after.calls = before.calls
  /-- All bytes of the stack, the heap and the input are as they were. -/
  memory : after.memory = before.memory
  log : after.log = before.log
  limit : after.meter.limit = before.meter.limit
  remaining_le : after.meter.remaining.toNat ≤ before.meter.remaining.toNat

variable {program : Program} {syscalls : Registry} {options : Options}
  {machine final : Machine} {fault : Fault}

-- ════════════════════════════════════════════════════════════════════════
-- One step
-- ════════════════════════════════════════════════════════════════════════

/-- The system calls of the registry of builtins are builtins. -/
theorem exists_builtin_of_handler? {hash : UInt32} {handler : Handler}
    (h : Registry.withBuiltins.handler? hash = some handler) :
    ∃ builtin : Builtin, builtin.invoke = handler := by
  rw [Registry.handler?_withBuiltins] at h
  obtain ⟨builtin, _, hinvoke⟩ := Option.map_eq_some_iff.1 h
  exact ⟨builtin, hinvoke⟩

/-- An instruction that fails leaves the machine as it was, up to what a system call has paid. -/
theorem eq_of_execute_faulted {slot : Slot}
    (h : execute program .withBuiltins slot machine = .faulted fault final) :
    ∃ context, Context.SameData machine.toContext context ∧
      final = { machine with toContext := context } := by
  have heffect := @execute_effect program .withBuiltins machine slot
  rw [h] at heffect
  cases heffect with
  | failed _ handler found _ context raised =>
    obtain ⟨builtin, rfl⟩ := exists_builtin_of_handler? found
    exact ⟨context, builtin.invoke_careful _ _ _ _ raised, rfl⟩
  | unknown | incomplete | refused | undivided | tooDeep | undefined | outside =>
    exact ⟨machine.toContext, .refl _, rfl⟩

/-- A step that fails spares the state. -/
theorem spared_of_step (h : step program .withBuiltins machine = .faulted fault final) :
    Spared machine final := by
  have hextends := step_extends program machine
  have heffect := step_effect program .withBuiltins machine
  rw [h] at hextends heffect
  cases heffect with
  | unfetched | unpaid => exact ⟨rfl, rfl, rfl, rfl, rfl, rfl, Nat.le_refl _⟩
  | paid slot fetched meter charged =>
    rw [step_eq_execute fetched charged] at h
    obtain ⟨context, hsame, rfl⟩ := eq_of_execute_faulted h
    exact ⟨rfl, rfl, rfl, hsame.memory, hsame.log, hextends.limit, hextends.remaining_le⟩

/-- If an instruction is not paid for itself, the budget is used up. -/
theorem outOfCompute_of_unpaid {slot : Slot} (hfetch : program.slot? machine.pc = some slot)
    (hcharge : machine.meter.charge? instructionCost = none)
    (h : step program syscalls machine = .faulted fault final) :
    fault = .outOfCompute ∧ final.meter.remaining = 0 := by
  simp only [step, hfetch, hcharge, Outcome.faulted.injEq] at h
  obtain ⟨rfl, rfl⟩ := h
  refine ⟨rfl, UInt64.toNat_inj.1 ?_⟩
  exact Nat.lt_one_iff.1 (Meter.charge?_eq_none_iff.1 hcharge)

-- ════════════════════════════════════════════════════════════════════════
-- Whole runs
-- ════════════════════════════════════════════════════════════════════════

theorem status_of_step (program : Program) (syscalls : Registry) (machine : Machine) :
    (step program syscalls machine).machine.status = machine.status := by
  apply step_keeps (P := fun after => after.status = machine.status) rfl
  intro slot meter outcome _ heffect
  cases heffect <;> rfl

/-- A machine that is running has been reached in a run. -/
theorem Reachable.exists_run (h : Reachable program syscalls options machine)
    (hrunning : machine.status = .running) :
    ∃ fresh count, boot program options = .ok fresh ∧
      runFor program syscalls count (fresh.withStatus .running) = .running machine := by
  induction h with
  | booted boots =>
    obtain ⟨_, rfl⟩ := boot_eq_ok boots
    cases hrunning
  | @started fresh boots => exact ⟨fresh, 0, boots, rfl⟩
  | @next before after _ stepped ih =>
    have hstatus := status_of_step program syscalls before
    rw [stepped] at hstatus
    obtain ⟨fresh, count, hboot, hrun⟩ := ih (hstatus.symm.trans hrunning)
    refine ⟨fresh, count + 1, hboot, ?_⟩
    rw [runFor_succ, hrun]
    exact stepped

/-- A run that fails at an instruction ends with the machine as it was before that instruction: its
registers, its call stack, its memory and its log. The exception names the place of the instruction.
Only the balance may be lower, and it is zero if the instruction itself could not be paid for. -/
theorem fault_without_effect {fresh : Machine} (hboot : boot program options = .ok fresh)
    (hreach : Reachable program .withBuiltins options machine)
    (hrunning : machine.status = .running)
    (hstep : step program .withBuiltins machine = .faulted fault final) :
    ∃ after, run program .withBuiltins fresh = .faulted fault after ∧
      (run program .withBuiltins fresh).result? = some (.error { pc := machine.pc, fault }) ∧
      Spared machine after ∧
      ((program.slot? machine.pc).isSome → machine.meter.charge? instructionCost = none →
        fault = .outOfCompute ∧ after.meter.remaining = 0) := by
  obtain ⟨other, count, hother, hrun⟩ := hreach.exists_run hrunning
  obtain rfl : fresh = other := Except.ok.inj (hboot.symm.trans hother)
  have hspared := spared_of_step hstep
  obtain ⟨_, hmarked⟩ := run_eq_of_step_ended hboot hrun (by rw [hstep]; trivial)
  rw [hstep] at hmarked
  refine ⟨final.withStatus .faulted, hmarked, ?_, ?_, ?_⟩
  · rw [hmarked, ← hspared.pc]
    rfl
  · obtain ⟨hregisters, hpc, hcalls, hmemory, hlog, hlimit, hremaining⟩ := hspared
    exact ⟨hregisters, hpc, hcalls, hmemory, hlog, hlimit, hremaining⟩
  · intro hfetch hcharge
    obtain ⟨slot, hslot⟩ := Option.isSome_iff_exists.1 hfetch
    have hbroke := outOfCompute_of_unpaid hslot hcharge hstep
    exact hbroke

/-- A program that compares its input with what is not there: `call sol_memcmp_`. -/
def comparesWithNothing : Program where
  image := encodeText [.new 0x85 0 1 0 0x5fdcde31]
  text := { start := 0, stop := 8 }
  entryPc := 0
  functions := .empty
  sbfV2 := false

theorem comparesWithNothing_boots :
    boot comparesWithNothing .default = .ok (initial comparesWithNothing .default) :=
  boot_of_verify (by decide +kernel) .default

/-- The system call is paid for, and then the second range that it compares is refused. -/
theorem step_comparesWithNothing :
    ∃ final, step comparesWithNothing .withBuiltins
        ((initial comparesWithNothing .default).withStatus .running) =
          .faulted (.accessViolation 0 0 false .unmapped) final ∧
      final.meter.remaining = 1399989 := by
  have hfetch : comparesWithNothing.slot?
      ((initial comparesWithNothing .default).withStatus .running).pc = some _ := rfl
  have hcharge : ((initial comparesWithNothing .default).withStatus .running).meter.charge?
      instructionCost = some ⟨1400000, 1399999, by decide⟩ := rfl
  have hsyscall := syscall?_withBuiltins hfetch
  rw [show builtin? comparesWithNothing _ = some .memcmp by decide +kernel] at hsyscall
  rw [step_eq_execute hfetch hcharge, execute_of_syscall? hsyscall]
  exact ⟨_, rfl, rfl⟩

/-- The run ends as if the system call had not been made, but for its price. -/
theorem fault_without_effect_of_comparesWithNothing :
    ∃ machine final, Reachable comparesWithNothing .withBuiltins .default machine ∧
      machine.status = .running ∧
      step comparesWithNothing .withBuiltins machine =
        .faulted (.accessViolation 0 0 false .unmapped) final ∧
      ∃ after, run comparesWithNothing .withBuiltins (initial comparesWithNothing .default) =
          .faulted (.accessViolation 0 0 false .unmapped) after ∧
        Spared machine after := by
  have hreach : Reachable comparesWithNothing .withBuiltins .default _ :=
    .started comparesWithNothing_boots
  obtain ⟨final, hstep, _⟩ := step_comparesWithNothing
  obtain ⟨after, hrun, _, hspared, _⟩ :=
    fault_without_effect comparesWithNothing_boots hreach rfl hstep
  exact ⟨_, final, hreach, rfl, hstep, after, hrun, hspared⟩

end Machine

end SbfMachine
