import SbfMachine.Proofs.Syscall.Charges

/-!
# System calls that fail

A builtin system call looks before it acts: it pays, reads what it needs and finds the place that it
writes to, and only then changes memory or log, after which nothing can go wrong any more. So if it
fails, it has changed neither.

## Main definitions

- `Context.SameData` — memory and log are the same
- `Syscall.Reads` — actions that change neither
- `Syscall.Careful` — actions that have changed neither if they fail
- `Syscall.Total` — actions that do not fail

## Main statements

- `Syscall.Reads.bind_careful`, `Syscall.Careful.bind_total` — reading may come before a careful
  action, and what cannot fail may come after it
- `Builtin.invoke_careful` — the builtins are careful
-/

namespace SbfMachine

/-- Memory and log are the same; of the budget, some may have been spent. -/
structure Context.SameData (before after : Context) : Prop where
  memory : after.memory = before.memory
  log : after.log = before.log

theorem Context.SameData.refl (context : Context) : SameData context context :=
  ⟨rfl, rfl⟩

theorem Context.SameData.trans {first second third : Context} (h : SameData first second)
    (h' : SameData second third) : SameData first third :=
  ⟨h'.memory.trans h.memory, h'.log.trans h.log⟩

namespace Syscall

variable {α β : Type} {first : Syscall α} {rest : α → Syscall β}

/-- An action that changes neither memory nor log, whether it returns or fails. -/
def Reads (action : Syscall α) : Prop :=
  Keeps Context.SameData action

/-- An action that has changed neither memory nor log if it fails. -/
def Careful (action : Syscall α) : Prop :=
  ∀ context fault after, action context = .error fault after → Context.SameData context after

/-- An action that does not fail. -/
def Total (action : Syscall α) : Prop :=
  ∀ context, ∃ value after, action context = .ok value after

-- ════════════════════════════════════════════════════════════════════════
-- Sequences
-- ════════════════════════════════════════════════════════════════════════

theorem Total.bind (hfirst : Total first) (hrest : ∀ value, Total (rest value)) :
    Total (first >>= rest) := by
  intro context
  obtain ⟨value, middle, hvalue⟩ := hfirst context
  obtain ⟨result, after, hresult⟩ := hrest value middle
  exact ⟨result, after, by rw [bind_apply, hvalue]; exact hresult⟩

/-- Reading first, an action is as careful as what comes then. -/
theorem Reads.bind_careful (hfirst : Reads first) (hrest : ∀ value, Careful (rest value)) :
    Careful (first >>= rest) := by
  intro context fault after h
  have hread := hfirst context
  rw [bind_apply] at h
  cases hresult : first context with
  | ok value middle =>
    rw [hresult] at h hread
    exact hread.trans (hrest value middle fault after h)
  | error other middle =>
    rw [hresult] at h hread
    cases h
    exact hread

/-- A careful action stays careful if nothing that comes then can fail. -/
theorem Careful.bind_total (hfirst : Careful first) (hrest : ∀ value, Total (rest value)) :
    Careful (first >>= rest) := by
  intro context fault after h
  rw [bind_apply] at h
  cases hresult : first context with
  | ok value middle =>
    rw [hresult] at h
    obtain ⟨_, _, hok⟩ := hrest value middle
    exact absurd (hok.symm.trans h) (fun hfail => nomatch hfail)
  | error other middle =>
    rw [hresult] at h
    cases h
    exact hfirst context fault after hresult

-- ════════════════════════════════════════════════════════════════════════
-- Basic actions
-- ════════════════════════════════════════════════════════════════════════

theorem Total.pure (value : α) : Total (pure value) :=
  fun context => ⟨value, context, rfl⟩

theorem Total.logLine (line : String) : Total (logLine line) :=
  fun _ => ⟨(), _, rfl⟩

theorem Total.careful {action : Syscall α} (h : Total action) : Careful action := by
  intro context fault after hfail
  obtain ⟨_, _, hok⟩ := h context
  exact absurd (hok.symm.trans hfail) (fun h => nomatch h)

theorem Careful.throw (fault : Fault) : Careful (throw fault : Syscall α) := by
  intro context _ after h
  cases h
  exact .refl context

theorem Reads.charge (cost : UInt64) : Reads (charge cost) := by
  intro context
  unfold Syscall.charge
  split <;> exact ⟨rfl, rfl⟩

theorem Reads.slice (address size : UInt64) : Reads (slice address size) := by
  intro context
  unfold Syscall.slice
  split <;> exact .refl context

theorem Reads.remaining : Reads remaining :=
  fun context => .refl context

/-- The place that is written to is found first. -/
theorem Careful.writeSlice (address : UInt64) (data : ByteArray) :
    Careful (writeSlice address data) := by
  intro context fault after h
  unfold Syscall.writeSlice at h
  split at h
  · cases h
  · cases h
    exact .refl context

theorem Careful.fillSlice (address size : UInt64) (value : UInt8) :
    Careful (fillSlice address size value) := by
  intro context fault after h
  unfold Syscall.fillSlice at h
  split at h
  · cases h
  · cases h
    exact .refl context

end Syscall

-- ════════════════════════════════════════════════════════════════════════
-- Builtins
-- ════════════════════════════════════════════════════════════════════════

namespace Builtin

open Syscall

theorem copyBytes_careful (target source size : UInt64) : Careful (copyBytes target source size) :=
  (Reads.slice _ _).bind_careful fun data =>
    (Careful.writeSlice target data).bind_total fun _ => .pure _

theorem logMessage_careful (address length : UInt64) : Careful (logMessage address length) := by
  unfold logMessage
  dsimp only [chargeAtLeast_eq]
  split
  · exact .throw _
  · refine (Reads.charge _).bind_careful fun _ => (Reads.slice _ _).bind_careful fun message => ?_
    exact ((Total.logLine _).bind fun _ => .pure _).careful

/-- Every builtin that fails has left memory and log alone. -/
theorem invoke_careful (builtin : Builtin) (arguments : Arguments) :
    Careful (builtin.invoke arguments) := by
  cases builtin with
  | abort => exact .throw _
  | log => exact logMessage_careful _ _
  | log64 =>
    exact (Reads.charge _).bind_careful fun _ => ((Total.logLine _).bind fun _ => .pure _).careful
  | logComputeUnits =>
    refine (Reads.charge _).bind_careful fun _ => Reads.remaining.bind_careful fun balance => ?_
    exact ((Total.logLine _).bind fun _ => .pure _).careful
  | memcpy =>
    refine (Reads.charge _).bind_careful fun _ => ?_
    dsimp only
    split
    · exact .throw _
    · exact copyBytes_careful _ _ _
  | memmove => exact (Reads.charge _).bind_careful fun _ => copyBytes_careful _ _ _
  | memset =>
    exact (Reads.charge _).bind_careful fun _ =>
      (Careful.fillSlice _ _ _).bind_total fun _ => .pure _
  | memcmp =>
    refine (Reads.charge _).bind_careful fun _ => ?_
    refine (Reads.slice _ _).bind_careful fun left => (Reads.slice _ _).bind_careful fun right => ?_
    exact (Careful.writeSlice _ _).bind_total fun _ => .pure _

end Builtin

end SbfMachine
