import SbfMachine.Proofs.Machine.Effect
import SbfMachine.Proofs.Machine.Reachable
import SbfMachine.Proofs.Syscall.Charges

/-!
# What a run costs

Every step that goes on pays for its instruction, and if that calls a builtin, the price of the
builtin as well. So the balance falls with every step, and a program cannot outlast its budget,
however it jumps, calls and returns.

## Main definitions

- `Machine.builtin?` — the builtin that the next instruction calls
- `Machine.resume` — how a machine goes on after a system call
- `Machine.toll` — what the next step costs
- `Machine.Pays` — the next step can be fetched and its instruction paid for
- `Machine.Metering` — the laws of the meter and the log in the executions of a program

## Main statements

- `Machine.step_extends` — a step only pays and logs
- `Machine.step_pays`, `Machine.step_of_short` — steps that can and steps that cannot be paid for
- `Machine.remaining_of_runFor` — a run of so many steps has paid at least that much
- `Machine.metering` — the laws hold in all executions
-/

namespace SbfMachine

/-- The outcome of a whole run: a machine that has come to an end is marked so. -/
def Outcome.mark : Outcome → Outcome
  | .running machine => .running machine
  | .exited value machine => .exited value (machine.withStatus .exited)
  | .faulted fault machine => .faulted fault (machine.withStatus .faulted)

namespace Machine

/-- The system call that the instruction in `slot` makes. -/
def syscall? (syscalls : Registry) (slot : Slot) : Option Handler :=
  match Opcode.ofByte? slot.opcode with
  | some .call => syscalls.handler? slot.uimm
  | _ => none

/-- The builtin that the next instruction calls. -/
def builtin? (program : Program) (machine : Machine) : Option Builtin :=
  match program.slot? machine.pc with
  | none => none
  | some slot =>
    match Opcode.ofByte? slot.opcode with
    | some .call => Builtin.ofHash? slot.uimm
    | _ => none

/-- The machine after a system call: it has the result in `r0`, or the call has failed. -/
def resume (machine : Machine) : EStateM.Result Fault Context UInt64 → Outcome
  | .ok value context =>
    .running
      { machine with
        toContext := context
        registers := machine.registers.set 0 value
        pc := machine.pc + 1 }
  | .error fault context => .faulted fault { machine with toContext := context }

/-- What the next step costs: a unit for the instruction, and the price of the builtin that it
calls. -/
def toll (program : Program) (machine : Machine) : Nat :=
  match machine.builtin? program with
  | none => 1
  | some builtin => 1 + builtin.price machine.registers.arguments

/-- The next instruction can be fetched and paid for. -/
def Pays (program : Program) (machine : Machine) : Prop :=
  (program.slot? machine.pc).isSome ∧ 0 < machine.meter.remaining.toNat

instance (program : Program) (machine : Machine) : Decidable (machine.Pays program) :=
  inferInstanceAs (Decidable (_ ∧ _))

theorem toll_pos (program : Program) (machine : Machine) : 0 < machine.toll program := by
  unfold toll
  split <;> omega

/-- Running a machine that is ready means setting it running and marking its end. -/
theorem run_eq_mark {program : Program} {syscalls : Registry} {machine : Machine}
    (hready : machine.status = .ready) :
    run program syscalls machine =
      (runFor program syscalls machine.stepBound (machine.withStatus .running)).mark := by
  rw [run, if_pos hready]
  cases runFor program syscalls machine.stepBound (machine.withStatus .running) <;> rfl

-- ════════════════════════════════════════════════════════════════════════
-- Instructions
-- ════════════════════════════════════════════════════════════════════════

section Execute

variable {program : Program} {syscalls : Registry} {slot : Slot} {machine : Machine}

/-- A system call is made, and the machine resumes with its result. -/
theorem invoke_eq_resume (machine : Machine) (handler : Handler) :
    machine.invoke handler =
      machine.resume (handler machine.registers.arguments machine.toContext) := by
  unfold invoke
  dsimp only
  split <;> next hresult => rw [hresult]; rfl

/-- A system call leaves the machine with the context that it leaves behind. -/
theorem toContext_resume (machine : Machine) (result : EStateM.Result Fault Context UInt64) :
    (machine.resume result).machine.toContext = Syscall.contextOf result := by
  cases result <;> rfl

theorem execute_of_syscall? {handler : Handler} (h : syscall? syscalls slot = some handler) :
    execute program syscalls slot machine = machine.invoke handler := by
  unfold syscall? at h
  split at h
  · next decoded => simp only [execute, decoded, call, h]
  · cases h

/-- All other instructions leave the books alone. -/
theorem execute_keeps_books (h : syscall? syscalls slot = none) :
    (execute program syscalls slot machine).machine.meter = machine.meter ∧
      (execute program syscalls slot machine).machine.log = machine.log := by
  have heffect := @execute_effect program syscalls machine slot
  generalize execute program syscalls slot machine = outcome at heffect ⊢
  cases heffect with
  | syscall decoded _ found | failed decoded _ found =>
    rw [syscall?, decoded] at h
    exact absurd (h.symm.trans found) (Option.some_ne_none _).symm
  | assign | store | skip | jump | enter | leave | finish | unknown | incomplete | refused
  | undivided | tooDeep | undefined | outside => exact ⟨rfl, rfl⟩

end Execute

section Step

variable {program : Program} {machine : Machine}

/-- With the registry of builtins, the system call of an instruction is a builtin. -/
theorem syscall?_withBuiltins {slot : Slot} (hfetch : program.slot? machine.pc = some slot) :
    syscall? .withBuiltins slot = (machine.builtin? program).map Builtin.invoke := by
  unfold syscall? builtin?
  rw [hfetch]
  dsimp only
  split
  · exact Registry.handler?_withBuiltins _
  · rfl

/-- Once it is paid for, a step carries out the instruction. -/
theorem step_eq_execute {syscalls : Registry} {slot : Slot} {meter : Meter}
    (hfetch : program.slot? machine.pc = some slot)
    (hcharge : machine.meter.charge? instructionCost = some meter) :
    step program syscalls machine = execute program syscalls slot { machine with meter } := by
  simp only [step, hfetch, hcharge]

/-- With the builtins as system calls, an instruction leaves the books alone, or it calls a builtin
and resumes with its result. -/
theorem execute_books {slot : Slot} (hfetch : program.slot? machine.pc = some slot) :
    machine.builtin? program = none ∧
        Context.Logs machine.toContext
          (execute program .withBuiltins slot machine).machine.toContext ∨
      ∃ builtin, machine.builtin? program = some builtin ∧
        execute program .withBuiltins slot machine =
          machine.resume (builtin.invoke machine.registers.arguments machine.toContext) := by
  have hsyscall := syscall?_withBuiltins hfetch
  cases hbuiltin : machine.builtin? program with
  | none =>
    rw [hbuiltin] at hsyscall
    obtain ⟨hmeter, hlog⟩ := @execute_keeps_books program _ _ machine hsyscall
    refine .inl ⟨rfl, hmeter, ?_⟩
    simp only [hlog, List.prefix_refl]
  | some builtin =>
    rw [hbuiltin] at hsyscall
    refine .inr ⟨builtin, rfl, ?_⟩
    rw [execute_of_syscall? hsyscall, invoke_eq_resume]

/-- An instruction only pays for the builtin that it calls, and logs. -/
theorem execute_extends {slot : Slot} (hfetch : program.slot? machine.pc = some slot) :
    Context.Extends machine.toContext
      (execute program .withBuiltins slot machine).machine.toContext := by
  obtain ⟨_, hlogs⟩ | ⟨builtin, _, hresume⟩ := execute_books hfetch
  · exact hlogs.extends
  · rw [hresume, toContext_resume]
    exact (builtin.invoke_prepaid _).extends_books _

/-- A step only pays and logs. -/
theorem step_extends (program : Program) (machine : Machine) :
    Context.Extends machine.toContext
      (step program .withBuiltins machine).machine.toContext := by
  cases hfetch : program.slot? machine.pc with
  | none =>
    simp only [step, hfetch]
    exact .refl _
  | some slot =>
    cases hcharge : machine.meter.charge? instructionCost with
    | none =>
      simp only [step, hfetch, hcharge]
      exact .refl _
    | some meter =>
      rw [step_eq_execute hfetch hcharge]
      exact (Context.extends_of_charge hcharge).trans
        (@execute_extends program { machine with meter } slot hfetch)

/-- A step that does not fail pays its toll, no more and no less. -/
theorem step_pays
    (hstep : ∀ fault final, step program .withBuiltins machine ≠ .faulted fault final) :
    (step program .withBuiltins machine).machine.meter.remaining.toNat + machine.toll program =
      machine.meter.remaining.toNat := by
  cases hfetch : program.slot? machine.pc with
  | none => exact absurd (by simp only [step, hfetch]) (hstep (.pcOutOfBounds machine.pc) machine)
  | some slot =>
    cases hcharge : machine.meter.charge? instructionCost with
    | none => exact absurd (by simp only [step, hfetch, hcharge]) (hstep .outOfCompute machine)
    | some meter =>
      rw [step_eq_execute hfetch hcharge] at hstep ⊢
      have hpaid : meter.remaining.toNat + 1 = machine.meter.remaining.toNat :=
        (Meter.charge?_eq_some hcharge).2
      unfold toll
      obtain ⟨hbuiltin, hlogs⟩ | ⟨builtin, hbuiltin, hresume⟩ :=
        @execute_books program { machine with meter } slot hfetch
      · rw [hlogs.meter, show machine.builtin? program = none from hbuiltin]
        exact hpaid
      · have hprepaid := builtin.invoke_prepaid machine.registers.arguments
        rw [show machine.builtin? program = some builtin from hbuiltin]
        rw [hresume] at hstep ⊢
        dsimp only at hstep ⊢
        cases hresult :
          builtin.invoke machine.registers.arguments { machine.toContext with meter } with
        | ok value context =>
          have hprice := hprepaid.paid hresult
          show context.meter.remaining.toNat + (1 + _) = _
          dsimp only at hprice
          omega
        | error fault context => exact absurd (by rw [hresult]; rfl) (hstep _ _)

/-- A step that is too dear ends the run, and the charge that does not fit changes nothing: either
the instruction is not even paid for, or it is, and the builtin that it calls is not. -/
theorem step_of_short {slot : Slot} (hfetch : program.slot? machine.pc = some slot)
    (hshort : machine.meter.remaining.toNat < machine.toll program) :
    ∃ meter, step program .withBuiltins machine = .faulted .outOfCompute { machine with meter } ∧
      (machine.meter.remaining.toNat = 0 ∧ meter = machine.meter ∨
        machine.meter.charge? instructionCost = some meter) := by
  cases hcharge : machine.meter.charge? instructionCost with
  | none =>
    refine ⟨machine.meter, ?_, .inl ⟨?_, rfl⟩⟩
    · simp only [step, hfetch, hcharge]
    · exact Nat.lt_one_iff.1 (Meter.charge?_eq_none_iff.1 hcharge)
  | some meter =>
    refine ⟨meter, ?_, .inr rfl⟩
    have hpaid : meter.remaining.toNat + 1 = machine.meter.remaining.toNat :=
      (Meter.charge?_eq_some hcharge).2
    unfold toll at hshort
    obtain ⟨hbuiltin, _⟩ | ⟨builtin, hbuiltin, hresume⟩ :=
      @execute_books program { machine with meter } slot hfetch
    · rw [show machine.builtin? program = none from hbuiltin] at hshort
      dsimp only at hshort
      omega
    · rw [show machine.builtin? program = some builtin from hbuiltin] at hshort
      have hprepaid := builtin.invoke_prepaid machine.registers.arguments
      have hunpaid : builtin.invoke machine.registers.arguments { machine.toContext with meter } =
          .error .outOfCompute { machine.toContext with meter } := by
        refine hprepaid.unpaid ?_
        dsimp only at hshort ⊢
        omega
      rw [step_eq_execute hfetch hcharge, hresume]
      dsimp only
      rw [hunpaid]
      rfl

end Step

-- ════════════════════════════════════════════════════════════════════════
-- Whole runs
-- ════════════════════════════════════════════════════════════════════════

section Run

variable {program : Program} {options : Options} {machine start last : Machine} {count : Nat}

/-- A run that is still going has paid at least a unit for each of its steps. -/
theorem remaining_of_runFor
    (h : runFor program .withBuiltins count start = .running last) :
    last.meter.remaining.toNat + count ≤ start.meter.remaining.toNat := by
  induction count generalizing last with
  | zero =>
    obtain rfl := Outcome.running.inj h
    exact Nat.le_refl _
  | succ count ih =>
    rw [runFor_succ] at h
    cases hrun : runFor program .withBuiltins count start with
    | running before =>
      rw [hrun] at h
      have hbefore := ih hrun
      have hpays := @step_pays program before fun fault final hfault => by
        rw [show step program .withBuiltins before = .running last from h] at hfault
        cases hfault
      rw [show step program .withBuiltins before = .running last from h] at hpays
      have htoll := toll_pos program before
      dsimp only [Outcome.machine] at hpays
      omega
    | exited | faulted =>
      rw [hrun] at h
      cases h

/-- A run is over before it has taken more steps than it has units to pay. -/
theorem runFor_ends {bound : Nat} (hbound : start.meter.remaining.toNat < bound) :
    (runFor program .withBuiltins bound start).Ended := by
  cases hrun : runFor program .withBuiltins bound start with
  | running last =>
    have hpaid := remaining_of_runFor hrun
    omega
  | exited | faulted => trivial

theorem Reachable.limit_eq (h : Reachable program .withBuiltins options machine) :
    machine.meter.limit = options.budget := by
  refine h.invariant (P := fun machine => machine.meter.limit = options.budget) ?_ ?_
  · exact fun _ _ => rfl
  · intro before _ hbefore
    exact (step_extends program before).limit.trans hbefore

/-- A machine that is booted is ready, and has its whole budget. -/
theorem ready_of_boot (hboot : boot program options = .ok machine) :
    machine.status = .ready ∧ machine.meter.remaining = options.budget := by
  obtain ⟨_, rfl⟩ := boot_eq_ok hboot
  exact ⟨rfl, rfl⟩

/-- All bounds on a run that the budget cannot outlast are as good as each other. -/
theorem run_eq_of_bound (hboot : boot program options = .ok machine) {bound : Nat}
    (hbound : options.budget.toNat < bound) :
    (runFor program .withBuiltins bound (machine.withStatus .running)).Ended ∧
      run program .withBuiltins machine =
        (runFor program .withBuiltins bound (machine.withStatus .running)).mark := by
  obtain ⟨hready, hbudget⟩ := ready_of_boot hboot
  rw [← hbudget] at hbound
  have hends := @runFor_ends program (machine.withStatus .running) machine.stepBound
    (Nat.lt_succ_self _)
  have hsame := runFor_of_ended (Nat.succ_le_of_lt hbound) hends
  rw [run_eq_mark hready, hsame]
  exact ⟨hends, rfl⟩

/-- A step that ends a bounded run from the start ends the whole run. -/
theorem run_eq_of_step_ended (hboot : boot program options = .ok machine)
    (hrun : runFor program .withBuiltins count (machine.withStatus .running) = .running last)
    (hended : (step program .withBuiltins last).Ended) :
    (∀ bound, count < bound →
        runFor program .withBuiltins bound (machine.withStatus .running) =
          step program .withBuiltins last) ∧
      run program .withBuiltins machine = (step program .withBuiltins last).mark := by
  have hlast : runFor program .withBuiltins (count + 1) (machine.withStatus .running) =
      step program .withBuiltins last := by
    rw [runFor_succ, hrun]
  have hlater : ∀ bound, count < bound →
      runFor program .withBuiltins bound (machine.withStatus .running) =
        step program .withBuiltins last := by
    intro bound hbound
    rw [runFor_of_ended hbound (by rw [hlast]; exact hended), hlast]
  refine ⟨hlater, ?_⟩
  have hpaid := remaining_of_runFor hrun
  have hbudget : (machine.withStatus .running).meter.remaining = options.budget :=
    (ready_of_boot hboot).2
  rw [hbudget] at hpaid
  rw [(run_eq_of_bound hboot (Nat.lt_succ_self _)).2, hlater]
  omega

end Run

/-- The laws of the meter and the log in the executions of a program with the builtin system
calls. -/
structure Metering (program : Program) (options : Options) : Prop where
  /-- A run comes to an end, and no bound on the number of steps has a part in that. The steps
  before the last one have paid for one instruction each. -/
  terminates : ∀ fresh, boot program options = .ok fresh →
    ∃ count last, runFor program .withBuiltins count (fresh.withStatus .running) = .running last ∧
      (step program .withBuiltins last).Ended ∧
      (∀ bound, count < bound →
        runFor program .withBuiltins bound (fresh.withStatus .running) =
          step program .withBuiltins last) ∧
      run program .withBuiltins fresh = (step program .withBuiltins last).mark ∧
      count + (if last.Pays program then 1 else 0) ≤ options.budget.toNat
  /-- What is used and what is left make up the budget, also where a run has ended. -/
  balance : ∀ machine, Reachable program .withBuiltins options machine →
    machine.meter.used.toNat + machine.meter.remaining.toNat = options.budget.toNat ∧
      (step program .withBuiltins machine).machine.meter.used.toNat +
        (step program .withBuiltins machine).machine.meter.remaining.toNat = options.budget.toNat
  /-- A step that does not fail pays a unit for the instruction and the price of the builtin that
  it calls. -/
  exact : ∀ machine, Reachable program .withBuiltins options machine →
    (∀ fault final, step program .withBuiltins machine ≠ .faulted fault final) →
      (step program .withBuiltins machine).machine.meter.remaining.toNat +
        machine.toll program = machine.meter.remaining.toNat
  /-- A charge that does not fit ends the run and leaves the balance as it was: that of the
  instruction, or that of the builtin once the instruction is paid for. -/
  unpaid : ∀ fresh count last slot, boot program options = .ok fresh →
    runFor program .withBuiltins count (fresh.withStatus .running) = .running last →
      program.slot? last.pc = some slot →
        last.meter.remaining.toNat < last.toll program →
          ∃ meter,
            step program .withBuiltins last = .faulted .outOfCompute { last with meter } ∧
            run program .withBuiltins fresh =
              .faulted .outOfCompute (({ last with meter } : Machine).withStatus .faulted) ∧
            (last.meter.remaining.toNat = 0 ∧ meter = last.meter ∨
              last.meter.charge? instructionCost = some meter)
  /-- The log is only ever continued. -/
  log : ∀ machine, Reachable program .withBuiltins options machine →
    machine.log.toList <+: (step program .withBuiltins machine).machine.log.toList

/-- All executions are metered exactly and come to an end. -/
theorem metering (program : Program) (options : Options) : Metering program options where
  terminates fresh hboot := by
    obtain ⟨_, hbudget⟩ := ready_of_boot hboot
    obtain ⟨hends, _⟩ := run_eq_of_bound hboot (Nat.lt_succ_self _)
    obtain ⟨count, _, last, hrun, hlast⟩ := exists_last_of_runFor_ended hends
    rw [← hlast] at hends
    obtain ⟨hlater, hmarked⟩ := run_eq_of_step_ended hboot hrun hends
    refine ⟨count, last, hrun, hends, hlater, hmarked, ?_⟩
    have hpaid := remaining_of_runFor hrun
    have hstart : (fresh.withStatus .running).meter.remaining = options.budget := hbudget
    rw [hstart] at hpaid
    split
    · next hpays =>
      have hleft := hpays.2
      omega
    · omega
  balance machine hreach := by
    have hextends := step_extends program machine
    refine ⟨?_, ?_⟩
    · rw [Meter.used_add_remaining, hreach.limit_eq]
    · rw [Meter.used_add_remaining, hextends.limit, hreach.limit_eq]
  exact machine _ hstep := step_pays hstep
  unpaid fresh count last slot hboot hrun hfetch hshort := by
    obtain ⟨meter, hstep, hmeter⟩ := step_of_short hfetch hshort
    obtain ⟨_, hmarked⟩ := run_eq_of_step_ended hboot hrun (by rw [hstep]; trivial)
    rw [hstep] at hmarked
    exact ⟨meter, hstep, hmarked, hmeter⟩
  log machine _ := (step_extends program machine).log

/-- A program that reports its balance and exits. -/
def reportsBalance : Program where
  image := encodeText [.new 0x85 0 0 0 0x52ba5096, .new 0x95 0 0 0 0]
  text := { start := 0, stop := 16 }
  entryPc := 0
  functions := .empty
  sbfV2 := false

theorem reportsBalance_boots (options : Options) :
    boot reportsBalance options = .ok (initial reportsBalance options) :=
  boot_of_verify (by decide +kernel) options

/-- It makes the report, and then it exits. -/
theorem steps_reportsBalance :
    ∃ next last,
      step reportsBalance .withBuiltins ((initial reportsBalance .default).withStatus .running) =
          .running next ∧
        step reportsBalance .withBuiltins next = .exited 0 last ∧ last.meter.used = 102 := by
  have hfetch : reportsBalance.slot? ((initial reportsBalance .default).withStatus .running).pc =
      some _ := rfl
  have hcharge : ((initial reportsBalance .default).withStatus .running).meter.charge?
      instructionCost = some ⟨1400000, 1399999, by decide⟩ := rfl
  have hsyscall := syscall?_withBuiltins hfetch
  rw [show builtin? reportsBalance _ = some .logComputeUnits by decide +kernel] at hsyscall
  rw [step_eq_execute hfetch hcharge, execute_of_syscall? hsyscall]
  exact ⟨_, _, rfl, rfl, rfl⟩

/-- The report costs 101 units, those for the instruction included. With a budget of 100 it is not
made, and the 99 units that are left stay. -/
theorem metering_of_reportsBalance :
    (∃ next,
      step reportsBalance .withBuiltins ((initial reportsBalance .default).withStatus .running) =
          .running next ∧
        next.meter.remaining.toNat + 101 = 1400000) ∧
      ∃ final,
        run reportsBalance .withBuiltins
            (initial reportsBalance { Options.default with budget := 100 }) =
          .faulted .outOfCompute final ∧
        final.meter.remaining.toNat = 99 := by
  obtain ⟨next, _, hnext, -⟩ := steps_reportsBalance
  refine ⟨⟨next, hnext, ?_⟩, ?_⟩
  · have hexact := (metering reportsBalance .default).exact _ (.started (reportsBalance_boots _))
      (by rw [hnext]; exact fun _ _ => nofun)
    rw [hnext] at hexact
    exact hexact
  · obtain ⟨meter, -, hrun, hmeter⟩ :=
      (metering reportsBalance { Options.default with budget := 100 }).unpaid _ 0 _ _
        (reportsBalance_boots _) rfl rfl (by decide +kernel)
    refine ⟨_, hrun, ?_⟩
    obtain ⟨hzero, -⟩ | hcharge := hmeter
    · exact absurd hzero (by decide)
    · exact Nat.succ.inj (Meter.charge?_eq_some hcharge).2

end Machine

end SbfMachine
