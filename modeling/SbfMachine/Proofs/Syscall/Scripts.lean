import SbfMachine.Proofs.Memory.Accesses
import SbfMachine.Proofs.Syscall.Charges

/-!
# System calls as scripts

The builtin system calls are put together from the basic actions. Written down as a script, a system
call shows which accesses it makes: those that it gets to, up to and including the first that is
refused. An action as such does not show them, since it can do the same with fewer accesses or more.

## Main definitions

- `Script` — basic actions, one after the other
- `Script.run` — the action that a script stands for
- `Script.accesses` — the accesses that it makes
- `Builtin.script` — the builtins as scripts

## Main statements

- `Builtin.run_script` — the scripts are what the builtins do
- `Script.fault_of_refused` — an access that is refused ends the call
- `Script.run_mapMemory` — if all accesses ignore a change of the memory, then so does the call
-/

namespace SbfMachine

/-- A system call that is put together from the basic actions. What it does next can depend on what
it has found in memory, or on the balance. -/
inductive Script
  | done (value : UInt64)
  | fail (fault : Fault)
  | charge (cost : UInt64) (next : Script)
  | slice (address size : UInt64) (next : ByteArray → Script)
  | writeSlice (address : UInt64) (data : ByteArray) (next : Script)
  | fillSlice (address size : UInt64) (value : UInt8) (next : Script)
  | logLine (line : String) (next : Script)
  | remaining (next : UInt64 → Script)

namespace Script

/-- The action that a script stands for. -/
def run : Script → Syscall UInt64
  | .done value => pure value
  | .fail fault => throw fault
  | .charge cost next => do
    Syscall.charge cost
    next.run
  | .slice address size next => do
    let bytes ← Syscall.slice address size
    (next bytes).run
  | .writeSlice address data next => do
    Syscall.writeSlice address data
    next.run
  | .fillSlice address size value next => do
    Syscall.fillSlice address size value
    next.run
  | .logLine line next => do
    Syscall.logLine line
    next.run
  | .remaining next => do
    let balance ← Syscall.remaining
    (next balance).run

/-- The accesses that a script makes. Behind one that is refused, there are no more. -/
def accesses : Script → Context → List Access
  | .done _, _ | .fail _, _ => []
  | .charge cost next, context =>
    match context.meter.charge? cost with
    | some meter => next.accesses { context with meter }
    | none => []
  | .slice address size next, context =>
    { memory := context.memory, address, size := size.toNat, write := false } ::
      match context.memory.read address size.toNat with
      | .ok bytes => (next bytes).accesses context
      | .error _ => []
  | .writeSlice address data next, context =>
    { memory := context.memory, address, size := data.size, write := true } ::
      match context.memory.window address data.size true with
      | .ok window =>
        next.accesses { context with memory := context.memory.overwrite window data }
      | .error _ => []
  | .fillSlice address size value next, context =>
    { memory := context.memory, address, size := size.toNat, write := true } ::
      match context.memory.window address size.toNat true with
      | .ok window =>
        next.accesses { context with memory := context.memory.fillWindow window value }
      | .error _ => []
  | .logLine line next, context => next.accesses { context with log := context.log.push line }
  | .remaining next, context => (next context.meter.remaining).accesses context

end Script

-- ════════════════════════════════════════════════════════════════════════
-- The builtins
-- ════════════════════════════════════════════════════════════════════════

namespace Builtin

/-- Paying for handling `size` bytes of memory, and then the rest. -/
def payScript (size : UInt64) (next : Script) : Script :=
  .charge (max memoryOpBaseCost (size / bytesPerUnit)) next

def copyScript (target source size : UInt64) : Script :=
  .slice source size fun data => .writeSlice target data (.done 0)

/-- What a builtin does for given arguments, action by action. -/
def script (arguments : Arguments) : Builtin → Script
  | .abort => .fail .aborted
  | .log =>
    if maxLogLength < arguments.r2 then .fail .outOfCompute
    else
      .charge (max syscallBaseCost arguments.r2) <|
        .slice arguments.r1 arguments.r2 fun message =>
          .logLine ("Program log: " ++ Text.Utf8.decodeLossy message) (.done 0)
  | .log64 =>
    let numbers := [arguments.r1, arguments.r2, arguments.r3, arguments.r4, arguments.r5]
    .charge syscallBaseCost <|
      .logLine ("Program log: " ++ ", ".intercalate (numbers.map fun n => Text.hex n.toNat))
        (.done 0)
  | .logComputeUnits =>
    .charge syscallBaseCost <| .remaining fun balance => .logLine (balanceLine balance.toNat) (.done 0)
  | .memcpy =>
    payScript arguments.r3 <|
      if distance arguments.r1 arguments.r2 < arguments.r3 then .fail .copyOverlapping
      else copyScript arguments.r1 arguments.r2 arguments.r3
  | .memmove => payScript arguments.r3 (copyScript arguments.r1 arguments.r2 arguments.r3)
  | .memset =>
    payScript arguments.r3 <|
      .fillSlice arguments.r1 arguments.r3 arguments.r2.toUInt8 (.done 0)
  | .memcmp =>
    payScript arguments.r3 <|
      .slice arguments.r1 arguments.r3 fun left =>
        .slice arguments.r2 arguments.r3 fun right =>
          .writeSlice arguments.r4
            (Bytes.encodeLE (firstDifference left right 0).toUInt32.toUInt64 4) (.done 0)

/-- The scripts are what the builtins do. -/
theorem run_script (builtin : Builtin) (arguments : Arguments) :
    (builtin.script arguments).run = builtin.invoke arguments := by
  cases builtin with
  | log =>
    unfold script invoke logMessage
    dsimp only
    split <;> rfl
  | memcpy =>
    unfold script invoke copyDisjoint payScript Script.run
    dsimp only
    split <;> rfl
  | abort | log64 | logComputeUnits | memmove | memset | memcmp => rfl

end Builtin

-- ════════════════════════════════════════════════════════════════════════
-- Single actions
-- ════════════════════════════════════════════════════════════════════════

namespace Script

section Actions

variable (next : Script) (context : Context)

theorem run_charge (cost : UInt64) :
    (charge cost next).run context =
      match context.meter.charge? cost with
      | some meter => next.run { context with meter }
      | none => .error .outOfCompute context := by
  rw [run, Syscall.bind_apply, Syscall.charge]
  cases context.meter.charge? cost <;> rfl

theorem run_slice (address size : UInt64) (next : ByteArray → Script) :
    (slice address size next).run context =
      match context.memory.read address size.toNat with
      | .ok bytes => (next bytes).run context
      | .error fault => .error fault context := by
  rw [run, Syscall.bind_apply, Syscall.slice]
  cases context.memory.read address size.toNat <;> rfl

theorem run_writeSlice (address : UInt64) (data : ByteArray) :
    (writeSlice address data next).run context =
      match context.memory.window address data.size true with
      | .ok window => next.run { context with memory := context.memory.overwrite window data }
      | .error fault => .error fault context := by
  rw [run, Syscall.bind_apply, Syscall.writeSlice]
  cases context.memory.window address data.size true <;> rfl

theorem run_fillSlice (address size : UInt64) (value : UInt8) :
    (fillSlice address size value next).run context =
      match context.memory.window address size.toNat true with
      | .ok window => next.run { context with memory := context.memory.fillWindow window value }
      | .error fault => .error fault context := by
  rw [run, Syscall.bind_apply, Syscall.fillSlice]
  cases context.memory.window address size.toNat true <;> rfl

end Actions

-- ════════════════════════════════════════════════════════════════════════
-- Refused accesses
-- ════════════════════════════════════════════════════════════════════════

theorem read_of_refused {memory : Memory} {address : UInt64} {size : Nat} {fault : Fault}
    (h : memory.window address size false = .error fault) :
    memory.read address size = .error fault := by
  rw [Memory.read, h]

/-- An access that is refused ends the call with its fault. -/
theorem fault_of_refused {script : Script} {context : Context} {access : Access} {fault : Fault}
    (hmem : access ∈ script.accesses context) (hrefused : access.place = .error fault) :
    ∃ after, script.run context = .error fault after := by
  induction script generalizing context with
  | done | fail => exact absurd hmem List.not_mem_nil
  | charge cost next ih =>
    rw [run_charge]
    rw [accesses] at hmem
    cases hcharge : context.meter.charge? cost with
    | none =>
      rw [hcharge] at hmem
      exact absurd hmem List.not_mem_nil
    | some meter =>
      rw [hcharge] at hmem
      exact ih hmem
  | slice address size next ih =>
    rw [run_slice]
    rw [accesses] at hmem
    rcases List.mem_cons.1 hmem with rfl | hlater
    · rw [read_of_refused hrefused]
      exact ⟨context, rfl⟩
    · cases hread : context.memory.read address size.toNat with
      | error =>
        rw [hread] at hlater
        exact absurd hlater List.not_mem_nil
      | ok bytes =>
        rw [hread] at hlater
        exact ih bytes hlater
  | writeSlice address data next ih =>
    rw [run_writeSlice]
    rw [accesses] at hmem
    rcases List.mem_cons.1 hmem with rfl | hlater
    · rw [show context.memory.window address data.size true = .error fault from hrefused]
      exact ⟨context, rfl⟩
    · cases hwindow : context.memory.window address data.size true with
      | error =>
        rw [hwindow] at hlater
        exact absurd hlater List.not_mem_nil
      | ok window =>
        rw [hwindow] at hlater
        exact ih hlater
  | fillSlice address size value next ih =>
    rw [run_fillSlice]
    rw [accesses] at hmem
    rcases List.mem_cons.1 hmem with rfl | hlater
    · rw [show context.memory.window address size.toNat true = .error fault from hrefused]
      exact ⟨context, rfl⟩
    · cases hwindow : context.memory.window address size.toNat true with
      | error =>
        rw [hwindow] at hlater
        exact absurd hlater List.not_mem_nil
      | ok window =>
        rw [hwindow] at hlater
        exact ih hlater
  | logLine line next ih => exact ih hmem
  | remaining next ih => exact ih _ hmem

end Script

-- ════════════════════════════════════════════════════════════════════════
-- Changed memory
-- ════════════════════════════════════════════════════════════════════════

/-- The context with a changed memory. -/
def Context.mapMemory (change : Memory → Memory) (context : Context) : Context :=
  { context with memory := change context.memory }

/-- The same result, with a changed memory. -/
def Syscall.mapMemory {α : Type} (change : Memory → Memory) :
    EStateM.Result Fault Context α → EStateM.Result Fault Context α
  | .ok value context => .ok value (context.mapMemory change)
  | .error fault context => .error fault (context.mapMemory change)

/-- If all accesses of a system call ignore a change of the memory, then so does the call. -/
theorem Script.run_mapMemory {change : Memory → Memory} {script : Script} {context : Context}
    (h : ∀ access ∈ script.accesses context, access.Ignores change) :
    script.run (context.mapMemory change) = Syscall.mapMemory change (script.run context) := by
  induction script generalizing context with
  | done | fail => rfl
  | charge cost next ih =>
    rw [accesses] at h
    rw [run_charge, run_charge, show (context.mapMemory change).meter = context.meter from rfl]
    cases hcharge : context.meter.charge? cost with
    | none => rfl
    | some meter =>
      rw [hcharge] at h
      exact ih h
  | slice address size next ih =>
    rw [accesses] at h
    obtain ⟨hfirst, hlater⟩ := List.forall_mem_cons.1 h
    rw [run_slice, run_slice,
      show (context.mapMemory change).memory = change context.memory from rfl, hfirst.read]
    cases hread : context.memory.read address size.toNat with
    | error => rfl
    | ok bytes =>
      rw [hread] at hlater
      exact ih bytes hlater
  | writeSlice address data next ih =>
    rw [accesses] at h
    obtain ⟨hfirst, hlater⟩ := List.forall_mem_cons.1 h
    have hplace : (change context.memory).window address data.size true =
        context.memory.window address data.size true := hfirst.place
    rw [run_writeSlice, run_writeSlice,
      show (context.mapMemory change).memory = change context.memory from rfl, hplace]
    cases hwindow : context.memory.window address data.size true with
    | error => rfl
    | ok window =>
      rw [hwindow] at hlater
      have hsize : data.size = window.size := (Access.size_of_place hwindow).symm
      dsimp only
      rw [hfirst.overwrite window data hwindow hsize]
      exact ih hlater
  | fillSlice address size value next ih =>
    rw [accesses] at h
    obtain ⟨hfirst, hlater⟩ := List.forall_mem_cons.1 h
    have hplace : (change context.memory).window address size.toNat true =
        context.memory.window address size.toNat true := hfirst.place
    rw [run_fillSlice, run_fillSlice,
      show (context.mapMemory change).memory = change context.memory from rfl, hplace]
    cases hwindow : context.memory.window address size.toNat true with
    | error => rfl
    | ok window =>
      rw [hwindow] at hlater
      dsimp only
      rw [hfirst.fillWindow hwindow]
      exact ih hlater
  | logLine line next ih => exact ih h
  | remaining next ih => exact ih _ h

end SbfMachine
