import SbfMachine.Proofs.Machine.Budget
import SbfMachine.Proofs.Syscall.Scripts

/-!
# Runs on a changed memory

A program learns about its memory from its accesses, and about where its text lies from calls of
addresses. So if a run makes only accesses that ignore a change of the memory, it goes through the
same states on the changed memory, up to that change. The program may be exchanged along with the
memory, for one with the same instructions and functions, if the run calls no address.

## Main definitions

- `Machine.accesses` — the accesses of a step
- `Machine.CallsAddress` — steps that call an address
- `Machine.mapMemory` — a machine with a changed memory
- `Program.Alike` — programs with the same instructions and functions
- `Machine.Unaware` — the step of a machine does not notice the change

## Main statements

- `Machine.step_of_refused` — an access that is refused ends the run
- `Machine.Unaware.step` — one step on the changed memory
- `Machine.runFor_mapMemory` — any number of steps
- `Machine.run_mapMemory` — whole runs
-/

namespace SbfMachine

namespace Machine

/-- The accesses of the instruction in `slot`. -/
def accessesOf (slot : Slot) (machine : Machine) : List Access :=
  match Opcode.ofByte? slot.opcode with
  | some (.load width) =>
    [{ memory := machine.memory
       address := machine.registers.get slot.src + slot.displacement
       size := width.bytes
       write := false }]
  | some (.store width _) =>
    [{ memory := machine.memory
       address := machine.registers.get slot.dst + slot.displacement
       size := width.bytes
       write := true }]
  | some .call =>
    match Builtin.ofHash? slot.uimm with
    | some builtin => (builtin.script machine.registers.arguments).accesses machine.toContext
    | none => []
  | _ => []

/-- The accesses of a step: those of the instruction at the program counter, if there is one and it
is paid for. -/
def accesses (program : Program) (machine : Machine) : List Access :=
  match program.slot? machine.pc with
  | none => []
  | some slot =>
    match machine.meter.charge? instructionCost with
    | none => []
    | some meter => accessesOf slot { machine with meter }

/-- The step calls an address. -/
def CallsAddress (program : Program) (machine : Machine) : Prop :=
  ∃ slot meter, program.slot? machine.pc = some slot ∧
    machine.meter.charge? instructionCost = some meter ∧
      Opcode.ofByte? slot.opcode = some .callRegister

/-- The machine with a changed memory. -/
def mapMemory (change : Memory → Memory) (machine : Machine) : Machine :=
  { machine with memory := change machine.memory }

section MapMemory

variable (change : Memory → Memory) (machine : Machine)

@[simp] theorem mapMemory_memory : (machine.mapMemory change).memory = change machine.memory := rfl

@[simp] theorem mapMemory_registers : (machine.mapMemory change).registers = machine.registers := rfl

@[simp] theorem mapMemory_pc : (machine.mapMemory change).pc = machine.pc := rfl

@[simp] theorem mapMemory_calls : (machine.mapMemory change).calls = machine.calls := rfl

@[simp] theorem mapMemory_meter : (machine.mapMemory change).meter = machine.meter := rfl

@[simp] theorem mapMemory_toContext :
    (machine.mapMemory change).toContext = machine.toContext.mapMemory change := rfl

@[simp] theorem mapMemory_operand (slot : Slot) (immediate : UInt64) (form : OperandForm) :
    (machine.mapMemory change).operand slot immediate form =
      machine.operand slot immediate form := by
  cases form <;> rfl

theorem enter_mapMemory (target : Nat) :
    (machine.mapMemory change).enter target = (machine.enter target).map (·.mapMemory change) := by
  simp only [enter, mapMemory_calls, mapMemory_registers, mapMemory_pc]
  cases machine.calls.push? machine.registers.saved (machine.pc + 1) <;> rfl

theorem leave_mapMemory :
    (machine.mapMemory change).leave = machine.leave.map (·.mapMemory change) := by
  simp only [leave, mapMemory_calls]
  cases machine.calls.pop? <;> rfl

theorem resume_mapMemory (result : EStateM.Result Fault Context UInt64) :
    (machine.mapMemory change).resume (Syscall.mapMemory change result) =
      (machine.resume result).map (·.mapMemory change) := by
  cases result <;> rfl

end MapMemory

end Machine

/-- The programs have the same instructions and the same functions. Their images may differ, and
where the text lies in them. -/
structure Program.Alike (program other : Program) : Prop where
  slot? : ∀ pc, other.slot? pc = program.slot? pc
  functions : ∀ hash, other.functions.slot? hash = program.functions.slot? hash

theorem Program.Alike.refl (program : Program) : program.Alike program :=
  ⟨fun _ => rfl, fun _ => rfl⟩

namespace Machine

variable {program other : Program} {change : Memory → Memory} {machine : Machine} {slot : Slot}

-- ════════════════════════════════════════════════════════════════════════
-- Instructions
-- ════════════════════════════════════════════════════════════════════════

/-- A builtin whose accesses ignore the change does the same on the changed memory. -/
theorem invoke_mapMemory {builtin : Builtin}
    (h : ∀ access ∈ (builtin.script machine.registers.arguments).accesses machine.toContext,
      access.Ignores change) :
    (machine.mapMemory change).invoke builtin.invoke =
      (machine.invoke builtin.invoke).map (·.mapMemory change) := by
  rw [invoke_eq_resume, invoke_eq_resume, mapMemory_registers, mapMemory_toContext,
    ← builtin.run_script, Script.run_mapMemory h, resume_mapMemory]

/-- An instruction whose accesses ignore the change does the same on the changed memory. -/
theorem execute_mapMemory (halike : program.Alike other)
    (hcalls : Opcode.ofByte? slot.opcode = some .callRegister →
      other.slotOfAddress? = program.slotOfAddress?)
    (haccesses : ∀ access ∈ machine.accessesOf slot, access.Ignores change) :
    execute other .withBuiltins slot (machine.mapMemory change) =
      (execute program .withBuiltins slot machine).map (·.mapMemory change) := by
  unfold execute
  unfold accessesOf at haccesses
  cases decoded : Opcode.ofByte? slot.opcode with
  | none => rfl
  | some opcode =>
    rw [decoded] at hcalls haccesses
    simp only [mapMemory_memory, mapMemory_registers, mapMemory_pc, mapMemory_operand, halike.slot?]
    cases opcode with
    | wide => cases program.slot? (machine.pc + 1) <;> rfl
    | load width =>
      have hload := haccesses _ List.mem_cons_self
      dsimp only
      rw [hload.readWord]
      cases machine.memory.readWord width
        (machine.registers.get slot.src + slot.displacement) <;> rfl
    | store width form =>
      have hstore := haccesses _ List.mem_cons_self
      have hplace : (change machine.memory).window
          (machine.registers.get slot.dst + slot.displacement) width.bytes true = _ := hstore.place
      dsimp only
      rw [hplace, Access.place]
      dsimp only
      cases hwindow : machine.memory.window (machine.registers.get slot.dst + slot.displacement)
        width.bytes true with
      | error => rfl
      | ok window =>
        dsimp only
        rw [hstore.store hwindow]
        rfl
    | alu width op form =>
      dsimp only
      cases op.eval width (machine.registers.get slot.dst)
        (machine.operand slot (slot.aluImmediate width op) form) <;> rfl
    | neg | swap | jump => rfl
    | branch condition form =>
      dsimp only
      split <;> rfl
    | call =>
      dsimp only at haccesses
      simp only [call, Registry.handler?_withBuiltins, halike.functions]
      cases hbuiltin : Builtin.ofHash? slot.uimm with
      | some builtin =>
        rw [hbuiltin] at haccesses
        exact invoke_mapMemory haccesses
      | none =>
        simp only [Option.map_none]
        cases program.functions.slot? slot.uimm with
        | none => rfl
        | some target => exact enter_mapMemory change machine target
    | callRegister =>
      simp only [callAddress, hcalls rfl]
      cases program.slotOfAddress? (machine.registers.get slot.uimm.toNat) with
      | none => rfl
      | some target => exact enter_mapMemory change machine target
    | exit => exact leave_mapMemory change machine

/-- An access that is refused is the fault of its instruction. -/
theorem execute_of_refused {access : Access} {fault : Fault}
    (hmem : access ∈ machine.accessesOf slot) (hrefused : access.place = .error fault) :
    ∃ final, execute program .withBuiltins slot machine = .faulted fault final := by
  unfold accessesOf at hmem
  split at hmem
  · next width decoded =>
    obtain rfl := List.mem_singleton.1 hmem
    refine ⟨machine, ?_⟩
    simp only [execute, decoded, Memory.readWord_eq_error_iff.2 hrefused]
  · next width form decoded =>
    obtain rfl := List.mem_singleton.1 hmem
    have hwindow : machine.memory.window (machine.registers.get slot.dst + slot.displacement)
        width.bytes true = .error fault := hrefused
    refine ⟨machine, ?_⟩
    simp only [execute, decoded, hwindow]
  · next decoded =>
    cases hbuiltin : Builtin.ofHash? slot.uimm with
    | none =>
      rw [hbuiltin] at hmem
      exact absurd hmem List.not_mem_nil
    | some builtin =>
      rw [hbuiltin] at hmem
      obtain ⟨after, hfault⟩ := Script.fault_of_refused hmem hrefused
      have hhandler : Registry.withBuiltins.handler? slot.uimm = some builtin.invoke := by
        rw [Registry.handler?_withBuiltins, hbuiltin, Option.map_some]
      rw [builtin.run_script] at hfault
      simp only [execute, decoded, call, hhandler]
      rw [invoke_eq_resume, hfault]
      exact ⟨_, rfl⟩
  · exact absurd hmem List.not_mem_nil

-- ════════════════════════════════════════════════════════════════════════
-- Steps
-- ════════════════════════════════════════════════════════════════════════

/-- The step of a machine does not notice that its memory is changed and its program exchanged. -/
structure Unaware (program other : Program) (change : Memory → Memory) (machine : Machine) :
    Prop where
  calls : machine.CallsAddress program → other.slotOfAddress? = program.slotOfAddress?
  accesses : ∀ access ∈ machine.accesses program, access.Ignores change

theorem Unaware.step (h : Unaware program other change machine) (halike : program.Alike other) :
    step other .withBuiltins (machine.mapMemory change) =
      (step program .withBuiltins machine).map (·.mapMemory change) := by
  have haccesses := h.accesses
  unfold Machine.accesses at haccesses
  unfold Machine.step
  simp only [mapMemory_pc, mapMemory_meter, halike.slot?]
  cases hfetch : program.slot? machine.pc with
  | none => rfl
  | some slot =>
    dsimp only
    cases hcharge : machine.meter.charge? instructionCost with
    | none => rfl
    | some meter =>
      simp only [hfetch, hcharge] at haccesses
      exact execute_mapMemory halike (fun decoded => h.calls ⟨slot, meter, hfetch, hcharge, decoded⟩)
        haccesses

/-- An access that is refused ends the run with its fault. -/
theorem step_of_refused {access : Access} {fault : Fault} (hmem : access ∈ machine.accesses program)
    (hrefused : access.place = .error fault) :
    ∃ final, Machine.step program .withBuiltins machine = .faulted fault final := by
  unfold accesses at hmem
  split at hmem
  · exact absurd hmem List.not_mem_nil
  · next slot hfetch =>
    split at hmem
    · exact absurd hmem List.not_mem_nil
    · next meter hcharge =>
      rw [step_eq_execute hfetch hcharge]
      exact execute_of_refused hmem hrefused

-- ════════════════════════════════════════════════════════════════════════
-- Runs
-- ════════════════════════════════════════════════════════════════════════

/-- A run all of whose steps are unaware of the change goes through the same states, up to the
change. -/
theorem runFor_mapMemory (halike : program.Alike other) {count : Nat}
    (h : ∀ earlier last, earlier < count →
      runFor program .withBuiltins earlier machine = .running last →
        Unaware program other change last) :
    runFor other .withBuiltins count (machine.mapMemory change) =
      (runFor program .withBuiltins count machine).map (·.mapMemory change) := by
  induction count with
  | zero => rfl
  | succ count ih =>
    have hbefore := ih fun earlier last hearlier => h earlier last (by omega)
    rw [runFor_succ, runFor_succ, hbefore]
    cases hrun : runFor program .withBuiltins count machine with
    | running last => exact (h count last (Nat.lt_succ_self count) hrun).step halike
    | exited | faulted => rfl

theorem mark_map (outcome : Outcome) :
    (outcome.map (·.mapMemory change)).mark = outcome.mark.map (·.mapMemory change) := by
  cases outcome <;> rfl

/-- Two machines that are booted under the same budget, one of them with the changed memory: if no
step of the run is aware of the change, both runs come to the same end, up to the change. -/
theorem run_mapMemory {options changed : Options} {fresh : Machine} (halike : program.Alike other)
    (hboot : boot program options = .ok fresh)
    (hother : boot other changed = .ok (fresh.mapMemory change))
    (hbudget : changed.budget = options.budget)
    (h : ∀ count last,
      runFor program .withBuiltins count (fresh.withStatus .running) = .running last →
        Unaware program other change last) :
    (run program .withBuiltins fresh).Ended ∧
      run other .withBuiltins (fresh.mapMemory change) =
        (run program .withBuiltins fresh).map (·.mapMemory change) := by
  have hbound : changed.budget.toNat < options.budget.toNat + 1 := by
    rw [hbudget]
    exact Nat.lt_succ_self _
  obtain ⟨hended, hrun⟩ := run_eq_of_bound hboot (Nat.lt_succ_self options.budget.toNat)
  obtain ⟨_, hrun'⟩ := run_eq_of_bound hother hbound
  have hsame := @runFor_mapMemory _ _ change _ halike (options.budget.toNat + 1)
    fun earlier last _ => h earlier last
  refine ⟨?_, ?_⟩
  · rw [hrun]
    exact Outcome.ended_mark hended
  · rw [hrun, hrun', ← mark_map, ← hsame]
    rfl

end Machine

end SbfMachine
