import SbfMachine.Event
import SbfMachine.Machine.Step

/-!
# Runs and their traces

A run takes steps until the program exits or faults. Every instruction costs a unit and no system
call of the machine refunds any, so a budget of `n` units ends a run within `n + 1` steps; that
number bounds the iteration. A system call of a host that mints units can outlast the bound, and
the run then leaves the machine running.

The trace of a run consists of its events in order: for each instruction that is paid for a step,
then the lines that it adds to the log, and at the end how the program ended.

## Main definitions

- `Machine.runFor` — a bounded number of steps
- `Machine.run` — a whole execution; a machine runs only once
- `Outcome.machine`, `Outcome.result?` — the final state and the result
- `Machine.stepEvents`, `Machine.trace` — the events of one step and the first events of a run
-/

namespace SbfMachine

namespace Outcome

/-- The machine that a step or run leads to. -/
def machine : Outcome → Machine
  | .running machine | .exited _ machine | .faulted _ machine => machine

/-- The value or the exception that an execution ended with, if it ended. -/
def result? : Outcome → Option (Except Exception UInt64)
  | .running _ => none
  | .exited value _ => some (.ok value)
  | .faulted fault machine => some (.error { pc := machine.pc, fault })

end Outcome

namespace Machine

def runFor (program : Program) (syscalls : Registry) : (bound : Nat) → Machine → Outcome
  | 0, machine => .running machine
  | bound + 1, machine =>
    match step program syscalls machine with
    | .running machine => runFor program syscalls bound machine
    | .exited value machine => .exited value machine
    | .faulted fault machine => .faulted fault machine

/-- A number of steps that the budget cannot outlast. -/
def stepBound (machine : Machine) : Nat :=
  machine.meter.remaining.toNat + 1

def withStatus (machine : Machine) (status : Status) : Machine :=
  { machine with status }

/-- Runs a machine to the end. A machine that has run before is left as it is. -/
def run (program : Program) (syscalls : Registry) (machine : Machine) : Outcome :=
  if machine.status = .ready then
    match runFor program syscalls machine.stepBound (machine.withStatus .running) with
    | .running machine => .running machine
    | .exited value machine => .exited value (machine.withStatus .exited)
    | .faulted fault machine => .faulted fault (machine.withStatus .faulted)
  else .faulted .alreadyExecuted machine

/-- The event of the instruction at the program counter, if it can be fetched and paid for. -/
def fetchEvents (program : Program) (machine : Machine) : List Event :=
  match program.slot? machine.pc, machine.meter.charge? instructionCost with
  | some slot, some _ =>
    [.step machine.pc (slot.disassemble (program.slot? (machine.pc + 1)))]
  | _, _ => []

def endEvents : Outcome → List Event
  | .running _ => []
  | .exited value machine => [.programExited value machine.meter.used]
  | .faulted fault machine => [.programFaulted machine.pc fault machine.meter.used]

/-- The events of a step from `machine` to `outcome`. -/
def stepEvents (program : Program) (machine : Machine) (outcome : Outcome) : List Event :=
  fetchEvents program machine ++ Event.ofLog machine.log outcome.machine.log ++
    endEvents outcome

def traceFor (program : Program) (syscalls : Registry) : (bound : Nat) → Machine → List Event
  | 0, _ => []
  | bound + 1, machine =>
    let outcome := step program syscalls machine
    stepEvents program machine outcome ++
      match outcome with
      | .running machine => traceFor program syscalls bound machine
      | .exited _ _ | .faulted _ _ => []

/-- The first `count` events of the run of a machine. Each step has an event of its own, so
`count` steps are enough; a machine that has run before has no more events. -/
def trace (program : Program) (syscalls : Registry) (count : Nat) (machine : Machine) :
    List Event :=
  if machine.status = .ready then
    (traceFor program syscalls (min count machine.stepBound) machine).take count
  else []

end Machine

end SbfMachine
