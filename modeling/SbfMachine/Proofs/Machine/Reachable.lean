import SbfMachine.Machine.Trace

/-!
# Executions

The states that an execution passes through, and how a bounded run relates to its steps.

## Main definitions

- `Outcome.Ended` — nothing comes after it
- `Machine.Reachable` — the states between the steps of an execution
- `Machine.after` — the state after a number of steps, or at the end of a shorter run

## Main statements

- `Machine.Reachable.invariant` — invariants of steps hold in all states
- `Machine.runFor_succ` — a longer run takes its further step at the end
- `Machine.Reachable.of_runFor` — bounded runs pass through reachable states
- `Machine.exists_last_of_runFor_ended` — a run that is over took a step that ended it
- `Machine.runFor_of_ended` — and it stays over
-/

namespace SbfMachine

/-- A step or a run that is over. -/
def Outcome.Ended : Outcome → Prop
  | .running _ => False
  | .exited .. | .faulted .. => True

namespace Machine

/-- The states of the executions of a program: the machine that is booted, the one that has been
set running, and what steps lead to as long as they do not end the run. -/
inductive Reachable (program : Program) (syscalls : Registry) (options : Options) : Machine → Prop
  | booted {machine : Machine} (boots : boot program options = .ok machine) :
      Reachable program syscalls options machine
  | started {machine : Machine} (boots : boot program options = .ok machine) :
      Reachable program syscalls options (machine.withStatus .running)
  | next {machine next : Machine} (before : Reachable program syscalls options machine)
      (stepped : step program syscalls machine = .running next) :
      Reachable program syscalls options next

/-- The state after `count` steps; if the run ends before, the state that it ends in. -/
def after (program : Program) (syscalls : Registry) (machine : Machine) (count : Nat) : Machine :=
  (runFor program syscalls count machine).machine

/-- A machine can only be booted with a program that passes the verification. -/
theorem boot_eq_ok {program : Program} {options : Options} {machine : Machine}
    (h : boot program options = .ok machine) :
    program.verify = .ok () ∧ machine = initial program options := by
  unfold boot at h
  split at h
  · cases h
  · next hverify => exact ⟨hverify, (Except.ok.inj h).symm⟩

theorem boot_of_verify {program : Program} (h : program.verify = .ok ()) (options : Options) :
    boot program options = .ok (initial program options) := by
  rw [boot, h]

variable {program : Program} {syscalls : Registry} {options : Options} {machine : Machine}

theorem Reachable.verified (h : Reachable program syscalls options machine) :
    program.verify = .ok () := by
  induction h with
  | booted boots | started boots => exact (boot_eq_ok boots).1
  | next _ _ ih => exact ih

/-- What holds before the first step, and is kept by every step, holds in all states. -/
theorem Reachable.invariant {P : Machine → Prop} (hinitial : program.verify = .ok () →
      ∀ status, P ((initial program options).withStatus status))
    (hstep : ∀ before, program.verify = .ok () → P before →
      P (step program syscalls before).machine)
    (h : Reachable program syscalls options machine) : P machine := by
  induction h with
  | booted boots =>
    obtain ⟨hverify, rfl⟩ := boot_eq_ok boots
    exact hinitial hverify .ready
  | started boots =>
    obtain ⟨hverify, rfl⟩ := boot_eq_ok boots
    exact hinitial hverify .running
  | next before stepped ih =>
    have hnext := hstep _ before.verified ih
    rw [stepped] at hnext
    exact hnext

/-- A longer run goes on where a shorter one stopped, unless that has ended. -/
theorem runFor_succ (count : Nat) (machine : Machine) :
    runFor program syscalls (count + 1) machine =
      match runFor program syscalls count machine with
      | .running last => step program syscalls last
      | .exited value final => .exited value final
      | .faulted fault final => .faulted fault final := by
  induction count generalizing machine with
  | zero =>
    simp only [runFor]
    cases step program syscalls machine <;> rfl
  | succ count ih =>
    rw [runFor]
    cases hstep : step program syscalls machine with
    | running next =>
      have hfirst : runFor program syscalls (count + 1) machine =
          runFor program syscalls count next := by
        simp only [runFor, hstep]
      rw [hfirst]
      exact ih next
    | exited | faulted => simp only [runFor, hstep]

/-- A run that is still going passes through a reachable state. -/
theorem Reachable.of_runFor {start : Machine} (hstart : Reachable program syscalls options start)
    {count : Nat} (h : runFor program syscalls count start = .running machine) :
    Reachable program syscalls options machine := by
  induction count generalizing machine with
  | zero =>
    obtain rfl := Outcome.running.inj h
    exact hstart
  | succ count ih =>
    rw [runFor_succ] at h
    cases hrun : runFor program syscalls count start with
    | running last =>
      rw [hrun] at h
      exact .next (ih hrun) h
    | exited | faulted =>
      rw [hrun] at h
      cases h

/-- A run that is over took a last step, which ended it. -/
theorem exists_last_of_runFor_ended {start : Machine} {bound : Nat}
    (h : (runFor program syscalls bound start).Ended) :
    ∃ count < bound, ∃ last, runFor program syscalls count start = .running last ∧
      step program syscalls last = runFor program syscalls bound start := by
  induction bound with
  | zero => exact h.elim
  | succ bound ih =>
    have hnext := @runFor_succ program syscalls bound start
    cases hrun : runFor program syscalls bound start with
    | running last =>
      rw [hrun] at hnext
      exact ⟨bound, Nat.lt_succ_self bound, last, hrun, hnext.symm⟩
    | exited | faulted =>
      rw [hrun] at hnext ih
      obtain ⟨count, hcount, last, hlast, hstep⟩ := ih trivial
      exact ⟨count, Nat.lt_succ_of_lt hcount, last, hlast, hstep.trans hnext.symm⟩

theorem exists_last_of_runFor_eq_exited {start final : Machine} {count : Nat} {value : UInt64}
    (h : runFor program syscalls count start = .exited value final) :
    ∃ steps < count, ∃ last, runFor program syscalls steps start = .running last ∧
      step program syscalls last = .exited value final := by
  rw [← h]
  exact exists_last_of_runFor_ended (by rw [h]; trivial)

/-- A run that is over stays as it is, however long it goes on. -/
theorem runFor_of_ended {start : Machine} {count bound : Nat} (hle : count ≤ bound)
    (h : (runFor program syscalls count start).Ended) :
    runFor program syscalls bound start = runFor program syscalls count start := by
  induction hle with
  | refl => rfl
  | @step bound _ ih =>
    rw [runFor_succ, ih]
    cases hrun : runFor program syscalls count start with
    | running =>
      rw [hrun] at h
      exact h.elim
    | exited | faulted => rfl

/-- A state that is reached by going on for longer is reached by a further step, or was reached
already. -/
theorem after_succ (machine : Machine) (count : Nat) :
    (∃ last, runFor program syscalls count machine = .running last ∧
        last = after program syscalls machine count ∧
        after program syscalls machine (count + 1) = (step program syscalls last).machine) ∨
      after program syscalls machine (count + 1) = after program syscalls machine count := by
  unfold after
  rw [runFor_succ]
  cases runFor program syscalls count machine with
  | running last => exact .inl ⟨last, rfl, rfl, rfl⟩
  | exited | faulted => exact .inr rfl

end Machine

end SbfMachine
