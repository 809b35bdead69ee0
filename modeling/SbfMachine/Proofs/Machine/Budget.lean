import SbfMachine.Proofs.Machine.Metering
import SbfMachine.Proofs.Syscall.Budget

/-!
# Runs under two budgets

A program cannot find out what its budget is. Two machines that execute it under different budgets
go through the same states, and their logs differ only in the balances that they report, until one
of them runs out of its budget.

## Main definitions

- `Machine.Twins` — machines that differ in their budgets alone
- `Outcome.Same` — outcomes that differ in the budgets alone
- `Outcome.Broke` — the outcome of a machine that has run out of its budget
- `Machine.withBooks` — a machine with another meter and log

## Main statements

- `Machine.execute_withBooks` — instructions other than system calls have no part in the books
- `Machine.Twins.step_threshold`, `Machine.Twins.runFor_threshold` — what steps and runs do on the
  two sides of a budget
- `Machine.budget_threshold` — a run needs what it uses, and nothing more
-/

namespace SbfMachine

/-- The machine `d` under the budget `other` is like `c` under `budget`. -/
structure Machine.Twins (budget other : UInt64) (c d : Machine) : Prop where
  context : Context.Twins budget other c.toContext d.toContext
  registers : d.registers = c.registers
  pc : d.pc = c.pc
  calls : d.calls = c.calls
  status : d.status = c.status

namespace Outcome

/-- The same outcome, of machines that are twins. -/
inductive Same (budget other : UInt64) : Outcome → Outcome → Prop
  | running {c d : Machine} (twins : Machine.Twins budget other c d) :
      Same budget other (.running c) (.running d)
  | exited {c d : Machine} (value : UInt64) (twins : Machine.Twins budget other c d) :
      Same budget other (.exited value c) (.exited value d)
  | faulted {c d : Machine} (fault : Fault) (twins : Machine.Twins budget other c d) :
      Same budget other (.faulted fault c) (.faulted fault d)

/-- The machine has run out of its budget. -/
def Broke (outcome : Outcome) : Prop :=
  ∃ final, outcome = .faulted .outOfCompute final

/-- The same outcome for another machine. -/
def map (change : Machine → Machine) : Outcome → Outcome
  | .running machine => .running (change machine)
  | .exited value machine => .exited value (change machine)
  | .faulted fault machine => .faulted fault (change machine)

variable {budget other : UInt64} {outcome outcome' : Outcome}

theorem Same.twins (h : Same budget other outcome outcome') :
    Machine.Twins budget other outcome.machine outcome'.machine := by
  cases h with
  | running twins | exited _ twins | faulted _ twins => exact twins

/-- Where the outcome is the same anyway, the other budget is large enough. -/
theorem Same.threshold (h : Same budget other outcome outcome') :
    Threshold other outcome.machine.meter.used.toNat (Same budget other outcome outcome')
      outcome'.Broke := by
  refine ⟨fun _ => h, fun hshort => ?_⟩
  have hused := h.twins.context.used_le
  omega

theorem Same.ended (h : Same budget other outcome outcome') (hended : outcome.Ended) :
    outcome'.Ended := by
  cases h with
  | running => exact hended
  | exited | faulted => trivial

theorem Broke.ended (h : outcome.Broke) : outcome.Ended := by
  obtain ⟨_, rfl⟩ := h
  trivial

theorem ended_mark (h : outcome.Ended) : outcome.mark.Ended := by
  cases outcome with
  | running => exact h
  | exited | faulted => trivial

theorem broke_mark_iff : outcome.mark.Broke ↔ outcome.Broke := by
  cases outcome <;> simp [mark, Broke]

theorem meter_mark : outcome.mark.machine.meter = outcome.machine.meter := by
  cases outcome <;> rfl

theorem Same.mark (h : Same budget other outcome outcome') :
    Same budget other outcome.mark outcome'.mark := by
  cases h with
  | running twins => exact .running twins
  | exited value twins =>
    exact .exited value ⟨twins.context, twins.registers, twins.pc, twins.calls, rfl⟩
  | faulted fault twins =>
    exact .faulted fault ⟨twins.context, twins.registers, twins.pc, twins.calls, rfl⟩

end Outcome

namespace Machine

variable {program : Program} {budget other : UInt64} {c d : Machine}

/-- A machine with other books. -/
def withBooks (machine : Machine) (meter : Meter) (log : Array String) : Machine :=
  { machine with meter, log }

section Books

variable (machine : Machine) (meter : Meter) (log : Array String)

@[simp] theorem withBooks_memory : (machine.withBooks meter log).memory = machine.memory := rfl

@[simp] theorem withBooks_registers :
    (machine.withBooks meter log).registers = machine.registers := rfl

@[simp] theorem withBooks_pc : (machine.withBooks meter log).pc = machine.pc := rfl

@[simp] theorem withBooks_calls : (machine.withBooks meter log).calls = machine.calls := rfl

@[simp] theorem withBooks_operand (slot : Slot) (immediate : UInt64) (form : OperandForm) :
    (machine.withBooks meter log).operand slot immediate form =
      machine.operand slot immediate form := by
  cases form <;> rfl

end Books

/-- Twins differ in nothing but their books. -/
theorem Twins.eq_withBooks (h : Twins budget other c d) : d = c.withBooks d.meter d.log := by
  obtain ⟨⟨memory, meter, log⟩, registers, pc, calls, status⟩ := d
  obtain ⟨hcontext, rfl, rfl, rfl, rfl⟩ := h
  obtain rfl : memory = c.memory := hcontext.memory
  rfl

theorem Twins.withContext (h : Twins budget other c d) {context context' : Context}
    (hcontext : Context.Twins budget other context context') :
    Twins budget other { c with toContext := context } { d with toContext := context' } :=
  ⟨hcontext, h.registers, h.pc, h.calls, h.status⟩

-- ════════════════════════════════════════════════════════════════════════
-- Instructions
-- ════════════════════════════════════════════════════════════════════════

section Execute

variable {syscalls : Registry} {slot : Slot} (meter : Meter) (log : Array String)

theorem enter_withBooks (machine : Machine) (target : Nat) :
    (machine.withBooks meter log).enter target =
      (machine.enter target).map (·.withBooks meter log) := by
  simp only [enter, withBooks_calls, withBooks_registers, withBooks_pc]
  cases machine.calls.push? machine.registers.saved (machine.pc + 1) <;> rfl

theorem leave_withBooks (machine : Machine) :
    (machine.withBooks meter log).leave = machine.leave.map (·.withBooks meter log) := by
  simp only [leave, withBooks_calls]
  cases machine.calls.pop? <;> rfl

/-- Instructions other than system calls have no part in the books. -/
theorem execute_withBooks (machine : Machine) (h : syscall? syscalls slot = none) :
    execute program syscalls slot (machine.withBooks meter log) =
      (execute program syscalls slot machine).map (·.withBooks meter log) := by
  unfold execute
  cases decoded : Opcode.ofByte? slot.opcode with
  | none => rfl
  | some opcode =>
    simp only [withBooks_memory, withBooks_registers, withBooks_pc, withBooks_operand]
    cases opcode with
    | wide => cases program.slot? (machine.pc + 1) <;> rfl
    | load width =>
      dsimp only
      cases machine.memory.readWord width
        (machine.registers.get slot.src + slot.displacement) <;> rfl
    | store width form =>
      dsimp only
      cases machine.memory.window (machine.registers.get slot.dst + slot.displacement)
        width.bytes true <;> rfl
    | alu width op form =>
      dsimp only
      cases op.eval width (machine.registers.get slot.dst)
        (machine.operand slot (slot.aluImmediate width op) form) <;> rfl
    | neg | swap | jump => rfl
    | branch condition form =>
      dsimp only
      split <;> rfl
    | call =>
      simp only [syscall?, decoded] at h
      simp only [call, h]
      cases program.functions.slot? slot.uimm with
      | none => rfl
      | some target => exact enter_withBooks meter log machine target
    | callRegister =>
      simp only [callAddress]
      cases program.slotOfAddress? (machine.registers.get slot.uimm.toNat) with
      | none => rfl
      | some target => exact enter_withBooks meter log machine target
    | exit => exact leave_withBooks meter log machine

/-- Twins stay twins when the machine itself goes on, but not its books. -/
theorem Twins.map {outcome : Outcome} (h : Twins budget other c d)
    (hmeter : outcome.machine.meter = c.meter) (hlog : outcome.machine.log = c.log) :
    Outcome.Same budget other outcome (outcome.map (·.withBooks d.meter d.log)) := by
  have hcontext : Context.Twins budget other outcome.machine.toContext
      (outcome.machine.withBooks d.meter d.log).toContext := by
    obtain ⟨_, hleft, hright, hused, hlines⟩ := h.context
    rw [← hmeter] at hleft hused
    rw [← hlog] at hlines
    exact ⟨rfl, hleft, hright, hused, hlines⟩
  cases outcome with
  | running machine => exact .running ⟨hcontext, rfl, rfl, rfl, rfl⟩
  | exited value machine => exact .exited value ⟨hcontext, rfl, rfl, rfl, rfl⟩
  | faulted fault machine => exact .faulted fault ⟨hcontext, rfl, rfl, rfl, rfl⟩

/-- Instructions other than system calls do the same in twins. -/
theorem Twins.execute (h : Twins budget other c d) (hnone : syscall? syscalls slot = none) :
    Outcome.Same budget other (execute program syscalls slot c)
      (execute program syscalls slot d) := by
  obtain ⟨hmeter, hlog⟩ := @execute_keeps_books program syscalls slot c hnone
  rw [h.eq_withBooks, execute_withBooks _ _ _ hnone]
  exact h.map hmeter hlog

/-- Twins resume in the same way after the same result. -/
theorem Twins.resume (h : Twins budget other c d)
    {result result' : EStateM.Result Fault Context UInt64}
    (hsame : Syscall.SameResult budget other result result') :
    Outcome.Same budget other (c.resume result) (d.resume result') := by
  cases hsame with
  | ok value twins =>
    refine .running ⟨twins, ?_, ?_, h.calls, h.status⟩
    · exact congrArg (Registers.set · 0 value) h.registers
    · exact congrArg (· + 1) h.pc
  | error fault twins => exact .faulted fault ⟨twins, h.registers, h.pc, h.calls, h.status⟩

theorem broke_resume {result : EStateM.Result Fault Context UInt64} (h : Syscall.Short result)
    (machine : Machine) : (machine.resume result).Broke := by
  obtain ⟨context, rfl⟩ := h
  exact ⟨_, rfl⟩

/-- A system call that pays in advance does the same in twins, if what is used then is there. -/
theorem Twins.invoke {handler : Handler} {price : Nat} (h : Twins budget other c d)
    (hprepaid : Syscall.Prepaid price (handler c.registers.arguments))
    (hsolvent : ¬ (c.invoke handler).Broke) :
    Threshold other (c.invoke handler).machine.meter.used.toNat
      (Outcome.Same budget other (c.invoke handler) (d.invoke handler))
      (d.invoke handler).Broke := by
  rw [invoke_eq_resume] at hsolvent
  rw [invoke_eq_resume, invoke_eq_resume, h.registers, toContext_resume]
  have hthreshold := hprepaid.threshold h.context fun hshort => hsolvent (broke_resume hshort c)
  exact hthreshold.imp h.resume fun hshort => broke_resume hshort d

end Execute

-- ════════════════════════════════════════════════════════════════════════
-- Steps and runs
-- ════════════════════════════════════════════════════════════════════════

/-- If the instruction is paid for in both twins, it does the same, if what is used then is
there. -/
theorem Twins.execute_threshold {slot : Slot} (h : Twins budget other c d)
    (hfetch : program.slot? c.pc = some slot)
    (hsolvent : ¬ (Machine.execute program .withBuiltins slot c).Broke) :
    Threshold other (Machine.execute program .withBuiltins slot c).machine.meter.used.toNat
      (Outcome.Same budget other (Machine.execute program .withBuiltins slot c)
        (Machine.execute program .withBuiltins slot d))
      (Machine.execute program .withBuiltins slot d).Broke := by
  have hsyscall := syscall?_withBuiltins hfetch
  cases hbuiltin : c.builtin? program with
  | none =>
    rw [hbuiltin] at hsyscall
    exact (h.execute hsyscall).threshold
  | some builtin =>
    rw [hbuiltin] at hsyscall
    rw [execute_of_syscall? hsyscall] at hsolvent
    rw [execute_of_syscall? hsyscall, execute_of_syscall? hsyscall]
    exact h.invoke (builtin.invoke_prepaid _) hsolvent

/-- A step does the same in twins, if what is used then is there, and otherwise ends the run. -/
theorem Twins.step_threshold (h : Twins budget other c d)
    (hsolvent : ¬ (step program .withBuiltins c).Broke) :
    Threshold other (step program .withBuiltins c).machine.meter.used.toNat
      (Outcome.Same budget other (step program .withBuiltins c) (step program .withBuiltins d))
      (step program .withBuiltins d).Broke := by
  cases hfetch : program.slot? c.pc with
  | none =>
    have hsame : Outcome.Same budget other (step program .withBuiltins c)
        (step program .withBuiltins d) := by
      simp only [step, hfetch, h.pc]
      exact .faulted _ h
    exact hsame.threshold
  | some slot =>
    have hfetch' : program.slot? d.pc = some slot := by rw [h.pc, hfetch]
    cases hcharge : c.meter.charge? instructionCost with
    | none => exact absurd ⟨c, by simp only [step, hfetch, hcharge]⟩ hsolvent
    | some meter =>
      have hpayment := h.context.charge hcharge
      have hlater := (@execute_extends program { c with meter } slot hfetch).used_le
      rw [step_eq_execute hfetch hcharge] at hsolvent ⊢
      refine hpayment.trans hlater ?_ ?_
      · rintro ⟨meter', hcharge', htwins⟩
        rw [step_eq_execute hfetch' hcharge']
        exact (h.withContext htwins).execute_threshold hfetch hsolvent
      · intro hshort
        exact ⟨d, by simp only [step, hfetch', hshort]⟩

/-- A run does the same in twins, if what is used then is there, and otherwise ends. -/
theorem Twins.runFor_threshold (h : Twins budget other c d) {count : Nat}
    (hsolvent : ¬ (runFor program .withBuiltins count c).Broke) :
    Threshold other (runFor program .withBuiltins count c).machine.meter.used.toNat
      (Outcome.Same budget other (runFor program .withBuiltins count c)
        (runFor program .withBuiltins count d))
      (runFor program .withBuiltins count d).Broke := by
  induction count with
  | zero => exact (Outcome.Same.running h).threshold
  | succ count ih =>
    cases hrun : runFor program .withBuiltins count c with
    | running last =>
      rw [runFor_succ, hrun] at hsolvent ⊢
      rw [runFor_succ]
      rw [hrun] at ih
      have hbefore := ih fun ⟨_, hbroke⟩ => nomatch hbroke
      have hlater := (step_extends program last).used_le
      refine hbefore.trans hlater ?_ ?_
      · intro hsame
        generalize runFor program .withBuiltins count d = outcome at hsame ⊢
        cases hsame with
        | running twins => exact twins.step_threshold hsolvent
      · rintro ⟨final, hbroke⟩
        rw [hbroke]
        exact ⟨final, rfl⟩
    | exited | faulted =>
      have hended : (runFor program .withBuiltins count c).Ended := by
        rw [hrun]
        trivial
      rw [runFor_of_ended (Nat.le_succ count) hended] at hsolvent ⊢
      refine (ih hsolvent).imp ?_ ?_
      · intro hsame
        rwa [runFor_of_ended (Nat.le_succ count) (hsame.ended hended)]
      · intro hbroke
        rwa [runFor_of_ended (Nat.le_succ count) hbroke.ended]

/-- Machines that have just been booted under two budgets are twins. -/
theorem twins_initial (program : Program) (options : Options) (budget : UInt64) :
    Twins options.budget budget ((initial program options).withStatus .running)
      ((initial program { options with budget }).withStatus .running) := by
  have hunused (limit : UInt64) : (Meter.new limit).used = 0 := UInt64.sub_self limit
  exact ⟨⟨rfl, rfl, rfl, (hunused budget).trans (hunused options.budget).symm, .nil⟩,
    rfl, rfl, rfl, rfl⟩

/-- A run needs what it uses, and nothing more. If it comes to another end than that its budget is
used up, then under every budget that is large enough for what it uses it comes to the same end in
the same state, up to the balances that it has reported, and under every smaller budget it ends
because that is used up. -/
theorem budget_threshold {program : Program} {options : Options} {fresh : Machine}
    (hboot : boot program options = .ok fresh)
    (hsolvent : ¬ (run program .withBuiltins fresh).Broke) (budget : UInt64) :
    (run program .withBuiltins fresh).Ended ∧
      ∃ other, boot program { options with budget } = .ok other ∧
        Threshold budget (run program .withBuiltins fresh).machine.meter.used.toNat
          (Outcome.Same options.budget budget (run program .withBuiltins fresh)
            (run program .withBuiltins other))
          (run program .withBuiltins other).Broke := by
  obtain ⟨hverify, rfl⟩ := boot_eq_ok hboot
  have hother : boot program { options with budget } =
      .ok (initial program { options with budget }) := by
    rw [boot, hverify]
  -- One number of steps for both runs.
  have hbound := Nat.le_max_left options.budget.toNat budget.toNat
  have hbound' := Nat.le_max_right options.budget.toNat budget.toNat
  obtain ⟨hended, hrun⟩ := run_eq_of_bound hboot (Nat.lt_succ_of_le hbound)
  obtain ⟨_, hrun'⟩ := run_eq_of_bound hother (Nat.lt_succ_of_le hbound')
  rw [hrun, Outcome.broke_mark_iff] at hsolvent
  have hthreshold := (twins_initial program options budget).runFor_threshold hsolvent
  refine ⟨?_, _, hother, ?_⟩
  · rw [hrun]
    exact Outcome.ended_mark hended
  · rw [hrun, hrun', Outcome.meter_mark, Outcome.broke_mark_iff]
    exact hthreshold.imp Outcome.Same.mark id

/-- A program that reports its balance uses a unit for each of its two instructions, and a hundred
for the report. -/
theorem run_reportsBalance :
    ∃ final, run reportsBalance .withBuiltins (initial reportsBalance .default) =
        .exited 0 final ∧
      final.meter.used = 102 := by
  obtain ⟨next, last, hnext, hlast, hused⟩ := steps_reportsBalance
  have hrun : runFor reportsBalance .withBuiltins 1
      ((initial reportsBalance .default).withStatus .running) = .running next := by
    simp only [runFor, hnext]
  obtain ⟨_, hmarked⟩ :=
    run_eq_of_step_ended (reportsBalance_boots _) hrun (by rw [hlast]; trivial)
  rw [hmarked, hlast]
  exact ⟨_, rfl, hused⟩

/-- It comes to the same end with the 102 units that it uses, and not with one unit less. -/
theorem budget_threshold_of_reportsBalance :
    ¬ (run reportsBalance .withBuiltins (initial reportsBalance .default)).Broke ∧
      (∃ other, boot reportsBalance { Options.default with budget := 102 } = .ok other ∧
        Outcome.Same defaultBudget 102
          (run reportsBalance .withBuiltins (initial reportsBalance .default))
          (run reportsBalance .withBuiltins other)) ∧
      ∃ other, boot reportsBalance { Options.default with budget := 101 } = .ok other ∧
        (run reportsBalance .withBuiltins other).Broke := by
  obtain ⟨final, hrun, hused⟩ := run_reportsBalance
  have hsolvent : ¬ (run reportsBalance .withBuiltins (initial reportsBalance .default)).Broke := by
    rw [hrun]
    exact fun ⟨_, hbroke⟩ => nomatch hbroke
  have hunits : (run reportsBalance .withBuiltins
      (initial reportsBalance .default)).machine.meter.used = 102 := by
    rw [hrun]
    exact hused
  obtain ⟨_, enough, henough, hsame⟩ := budget_threshold (reportsBalance_boots _) hsolvent 102
  obtain ⟨_, short, hshort, hless⟩ := budget_threshold (reportsBalance_boots _) hsolvent 101
  rw [hunits] at hsame hless
  exact ⟨hsolvent, ⟨enough, henough, hsame.same (by decide)⟩,
    ⟨short, hshort, hless.short (by decide)⟩⟩

end Machine

end SbfMachine
