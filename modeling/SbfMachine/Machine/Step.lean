import SbfMachine.Machine.Arithmetic
import SbfMachine.Machine.Basic
import SbfMachine.Syscall.Registry

/-!
# One step of a machine

A step fetches the slot at the program counter, pays for one instruction and carries it out. It
leaves the machine running, ends the execution with a result, or ends it with a fault; in each
case it also says what state the machine is in then.

## Main definitions

- `Outcome` — the three ways a step can end
- `execute` — the effect of one instruction
- `step` — fetching, paying and executing

## Design notes

An instruction first finds out whether it can be carried out and only then changes the machine.
So the machine of a fault is the one before the instruction, except that the instruction is paid
for and that a system call keeps what it did before it failed.
-/

namespace SbfMachine

/-- What a step leads to. -/
inductive Outcome
  | running (machine : Machine)
  /-- The entry function returned a value. -/
  | exited (value : UInt64) (machine : Machine)
  /-- The instruction at the program counter failed. -/
  | faulted (fault : Fault) (machine : Machine)

namespace Machine

/-- The slot that a jump goes to. Slot numbers are machine words, so a negative one wraps around. -/
def landing (machine : Machine) (slot : Slot) : Nat :=
  let target := jumpTarget machine.pc slot
  if target < 0 then (target + UInt64.size).toNat else target.toNat

def enter (machine : Machine) (target : Nat) : Outcome :=
  match machine.calls.push? machine.registers.saved (machine.pc + 1) with
  | none => .faulted .callDepthExceeded machine
  | some calls =>
    .running
      { machine with
        calls
        registers := machine.registers.set framePointerRegister calls.framePointer
        pc := target }

/-- Returns to the caller, or ends the execution with the contents of `r0`. -/
def leave (machine : Machine) : Outcome :=
  match machine.calls.pop? with
  | none => .exited (machine.registers.get 0) (machine.goto (machine.pc + 1))
  | some (frame, calls) =>
    .running
      { machine with
        calls
        registers :=
          (machine.registers.restore frame.saved).set framePointerRegister calls.framePointer
        pc := frame.returnPc }

/-- Makes a system call; its result goes to `r0`. -/
def invoke (machine : Machine) (handler : Handler) : Outcome :=
  let ⟨context, registers, pc, calls, status⟩ := machine
  match handler registers.arguments context with
  | .ok value context => .running ⟨context, registers.set 0 value, pc + 1, calls, status⟩
  | .error fault context => .faulted fault ⟨context, registers, pc, calls, status⟩

/-- Calls by hash. A system call takes precedence over a function with the same hash. -/
def call (program : Program) (syscalls : Registry) (hash : UInt32) (machine : Machine) :
    Outcome :=
  match syscalls.handler? hash with
  | some handler => machine.invoke handler
  | none =>
    match program.functions.slot? hash with
    | some target => machine.enter target
    | none => .faulted (.unknownCallTarget hash) machine

def callAddress (program : Program) (address : UInt64) (machine : Machine) : Outcome :=
  match program.slotOfAddress? address with
  | some target => machine.enter target
  | none => .faulted (.callOutsideText address) machine

/-- Carries out the instruction in `slot`, which stands at the program counter. -/
def execute (program : Program) (syscalls : Registry) (slot : Slot) (machine : Machine) :
    Outcome :=
  let next := machine.pc + 1
  match Opcode.ofByte? slot.opcode with
  | none => .faulted (.invalidInstruction slot.opcode) machine
  | some .wide =>
    match program.slot? next with
    | none => .faulted (.pcOutOfBounds next) machine
    | some second =>
      .running (machine.assign slot.dst (Slot.wideImmediate slot.uimm second.uimm) (next + 1))
  | some (.load width) =>
    let address := machine.registers.get slot.src + slot.displacement
    match machine.memory.readWord width address with
    | .error fault => .faulted fault machine
    | .ok value => .running (machine.assign slot.dst value next)
  | some (.store width form) =>
    let address := machine.registers.get slot.dst + slot.displacement
    let value := machine.operand slot (slot.storeImmediate width) form
    -- Located as a write first: a store that is refused has not touched a byte.
    match machine.memory.window address width.bytes true with
    | .error fault => .faulted fault machine
    | .ok window =>
      .running { machine with memory := machine.memory.store window value, pc := next }
  | some (.alu width op form) =>
    let value := machine.operand slot (slot.aluImmediate width op) form
    match op.eval width (machine.registers.get slot.dst) value with
    | .error fault => .faulted fault machine
    | .ok value => .running (machine.assign slot.dst value next)
  | some (.neg width) =>
    .running (machine.assign slot.dst (width.negate (machine.registers.get slot.dst)) next)
  | some (.swap order) =>
    let value := order.swap slot.imm (machine.registers.get slot.dst)
    .running (machine.assign slot.dst value next)
  | some .jump => .running (machine.goto (machine.landing slot))
  | some (.branch condition form) =>
    let value := machine.operand slot slot.immediate form
    if condition.holds (machine.registers.get slot.dst) value then
      .running (machine.goto (machine.landing slot))
    else .running (machine.goto next)
  | some .call => machine.call program syscalls slot.uimm
  | some .callRegister =>
    -- In a verified program the immediate names a register; the default of `get` is not needed.
    machine.callAddress program (machine.registers.get slot.uimm.toNat)
  | some .exit => machine.leave

/-- Fetches, pays for and carries out the instruction at the program counter. -/
def step (program : Program) (syscalls : Registry) (machine : Machine) : Outcome :=
  match program.slot? machine.pc with
  | none => .faulted (.pcOutOfBounds machine.pc) machine
  | some slot =>
    match machine.meter.charge? instructionCost with
    | none => .faulted .outOfCompute machine
    | some meter => execute program syscalls slot { machine with meter }

end Machine

end SbfMachine
