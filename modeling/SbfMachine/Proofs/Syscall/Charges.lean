import Mathlib.Data.List.Nodup
import SbfMachine.Syscall.Registry

/-!
# What system calls charge

A builtin system call pays its price before it does anything else, and from then on it only works
with memory and log. If the price is not there, it changes nothing at all.

## Main definitions

- `Builtin.price` — the price list
- `Builtin.ofHash?` — the builtin that a hash names
- `Context.Extends`, `Context.Logs` — what happens to the books of a program
- `Syscall.Keeps` — what holds between the contexts before and after an action
- `Syscall.Unpaid` — actions that work with memory and log and pay nothing
- `Syscall.Prepaid` — actions that pay a price first and nothing later

## Main statements

- `Syscall.Prepaid.extends_books`, `Syscall.Prepaid.unpaid`, `Syscall.Prepaid.paid` — what such an
  action does to the books
- `Builtin.invoke_prepaid` — the builtins charge according to the price list
- `Registry.handler?_withBuiltins` — the registry of builtins is looked up by their hashes
-/

namespace SbfMachine

/-- The price of a builtin for given arguments. Aborting is free: it never returns. -/
def Builtin.price (arguments : Arguments) : Builtin → Nat
  | .abort => 0
  | .log => max 100 arguments.r2.toNat
  | .log64 | .logComputeUnits => 100
  | .memcpy | .memmove | .memset | .memcmp => max 10 (arguments.r3.toNat / 250)

/-- The builtin that a hash names. -/
def Builtin.ofHash? (hash : UInt32) : Option Builtin :=
  Builtin.all.find? (·.hash = hash)

/-- The line that reports a balance. -/
def balanceLine (balance : Nat) : String :=
  "Program consumption: " ++ toString balance ++ " units remaining"

-- ════════════════════════════════════════════════════════════════════════
-- The books of a program
-- ════════════════════════════════════════════════════════════════════════

namespace Context

/-- The budget stays, the balance does not rise, and the log is continued. -/
structure Extends (before after : Context) : Prop where
  limit : after.meter.limit = before.meter.limit
  remaining_le : after.meter.remaining.toNat ≤ before.meter.remaining.toNat
  log : before.log.toList <+: after.log.toList

/-- The meter stays as it is, and the log is continued. -/
structure Logs (before after : Context) : Prop where
  meter : after.meter = before.meter
  log : before.log.toList <+: after.log.toList

theorem Extends.refl (context : Context) : Extends context context :=
  ⟨rfl, Nat.le_refl _, List.prefix_refl _⟩

theorem Extends.trans {first second third : Context} (h : Extends first second)
    (h' : Extends second third) : Extends first third :=
  ⟨h'.limit.trans h.limit, Nat.le_trans h'.remaining_le h.remaining_le, h.log.trans h'.log⟩

theorem Logs.refl (context : Context) : Logs context context :=
  ⟨rfl, List.prefix_refl _⟩

theorem Logs.trans {first second third : Context} (h : Logs first second)
    (h' : Logs second third) : Logs first third :=
  ⟨h'.meter.trans h.meter, h.log.trans h'.log⟩

theorem Logs.push (context : Context) (line : String) :
    Logs context { context with log := context.log.push line } := by
  refine ⟨rfl, ?_⟩
  rw [Array.toList_push]
  exact List.prefix_append _ _

theorem Logs.extends {before after : Context} (h : Logs before after) : Extends before after := by
  refine ⟨?_, Nat.le_of_eq ?_, h.log⟩ <;> rw [h.meter]

/-- The more is used, the less is left. -/
theorem Extends.used_le {before after : Context} (h : Extends before after) :
    before.meter.used.toNat ≤ after.meter.used.toNat := by
  have hbefore := before.meter.used_add_remaining
  have hafter := after.meter.used_add_remaining
  have hspent := h.remaining_le
  rw [h.limit] at hafter
  omega

theorem extends_of_charge {context : Context} {cost : UInt64} {meter : Meter}
    (hcharge : context.meter.charge? cost = some meter) :
    Extends context { context with meter } := by
  obtain ⟨hlimit, hremaining⟩ := Meter.charge?_eq_some hcharge
  refine ⟨hlimit, ?_, List.prefix_refl _⟩
  show meter.remaining.toNat ≤ context.meter.remaining.toNat
  omega

end Context

-- ════════════════════════════════════════════════════════════════════════
-- Actions
-- ════════════════════════════════════════════════════════════════════════

namespace Syscall

variable {α β : Type}

/-- The context that an action leaves behind, whether it returns or fails. -/
def contextOf : EStateM.Result Fault Context α → Context
  | .ok _ context | .error _ context => context

/-- The contexts before and after an action are always related. -/
def Keeps (relation : Context → Context → Prop) (action : Syscall α) : Prop :=
  ∀ context, relation context (contextOf (action context))

theorem bind_apply (first : Syscall α) (rest : α → Syscall β) (context : Context) :
    (first >>= rest) context =
      match first context with
      | .ok value after => rest value after
      | .error fault after => .error fault after := by
  show EStateM.bind first rest context = _
  unfold EStateM.bind
  cases first context <;> rfl

/-- Actions that work with memory and log and pay nothing. Of the meter they see no more than the
balance, which they can report. -/
inductive Unpaid : {α : Type} → Syscall α → Prop
  | pure {α : Type} (value : α) : Unpaid (pure value)
  | throw {α : Type} (fault : Fault) : Unpaid (throw fault : Syscall α)
  | slice (address size : UInt64) : Unpaid (slice address size)
  | writeSlice (address : UInt64) (data : ByteArray) : Unpaid (writeSlice address data)
  | fillSlice (address size : UInt64) (value : UInt8) : Unpaid (fillSlice address size value)
  | message (text : String) : Unpaid (logLine ("Program log: " ++ text))
  | report {α : Type} (value : α) :
      Unpaid (do
        let balance ← remaining
        logLine (balanceLine balance.toNat)
        return value)
  | bind {α β : Type} {first : Syscall α} {rest : α → Syscall β} (begins : Unpaid first)
      (goesOn : ∀ value, Unpaid (rest value)) : Unpaid (first >>= rest)

/-- Such actions leave the meter alone and add lines to the log. -/
theorem Unpaid.logs {action : Syscall α} (h : Unpaid action) : Keeps Context.Logs action := by
  induction h with
  | pure | throw => exact fun context => .refl context
  | slice address size =>
    intro context
    unfold Syscall.slice
    split <;> exact .refl context
  | writeSlice address data =>
    intro context
    unfold Syscall.writeSlice
    split <;> exact ⟨rfl, List.prefix_refl _⟩
  | fillSlice address size value =>
    intro context
    unfold Syscall.fillSlice
    split <;> exact ⟨rfl, List.prefix_refl _⟩
  | message text => exact fun context => .push context _
  | report value => exact fun context => .push context _
  | bind _ _ hfirst hrest =>
    rename_i first rest _ _
    intro context
    have hbefore := hfirst context
    rw [bind_apply]
    cases hresult : first context with
    | ok value after =>
      rw [hresult] at hbefore
      exact hbefore.trans (hrest value after)
    | error fault after =>
      rw [hresult] at hbefore
      exact hbefore

/-- Actions that pay `price` units before anything else, and nothing later. -/
inductive Prepaid (price : Nat) : Syscall α → Prop
  | charge (cost : UInt64) (rest : Unit → Syscall α) (hprice : cost.toNat = price)
      (work : ∀ paid, Unpaid (rest paid)) : Prepaid price (charge cost >>= rest)
  | free (action : Syscall α) (hprice : price = 0) (work : Unpaid action) : Prepaid price action
  /-- What is asked for is more than any budget should pay for. -/
  | refused : Prepaid price (throw .outOfCompute)

namespace Prepaid

variable {price : Nat} {action : Syscall α}

/-- Paying and working, an action only lowers the balance and continues the log. -/
theorem extends_books (h : Prepaid price action) : Keeps Context.Extends action := by
  intro context
  cases h with
  | charge cost rest _ work =>
    rw [bind_apply, Syscall.charge]
    cases hcharge : context.meter.charge? cost with
    | none => exact .refl context
    | some meter => exact (Context.extends_of_charge hcharge).trans ((work ()).logs _).extends
  | free _ _ work => exact (work.logs context).extends
  | refused => exact .refl context

/-- Without the means an action fails and changes nothing. -/
theorem unpaid (h : Prepaid price action) {context : Context}
    (hshort : context.meter.remaining.toNat < price) :
    action context = .error .outOfCompute context := by
  cases h with
  | charge cost rest hprice work =>
    rw [← hprice] at hshort
    rw [bind_apply, Syscall.charge, Meter.charge?_eq_none_iff.2 hshort]
  | free _ hprice => exact absurd hshort (by omega)
  | refused => rfl

/-- If an action returns, the price is what was paid. -/
theorem paid (h : Prepaid price action) {context after : Context} {value : α}
    (hresult : action context = .ok value after) :
    after.meter.remaining.toNat + price = context.meter.remaining.toNat := by
  cases h with
  | charge cost rest hprice work =>
    rw [bind_apply, Syscall.charge] at hresult
    cases hcharge : context.meter.charge? cost with
    | none =>
      rw [hcharge] at hresult
      cases hresult
    | some meter =>
      rw [hcharge] at hresult
      have hkept := ((work ()).logs { context with meter }).meter
      rw [show rest () { context with meter } = .ok value after from hresult] at hkept
      rw [← hprice, show after.meter = meter from hkept]
      exact (Meter.charge?_eq_some hcharge).2
  | free _ hprice work =>
    have hkept := (work.logs context).meter
    rw [hresult] at hkept
    rw [hprice, show after.meter = context.meter from hkept]
    rfl
  | refused => cases hresult

end Prepaid

/-- The larger of two words. -/
theorem toNat_max (a b : UInt64) : (max a b).toNat = max a.toNat b.toNat := by
  rw [show max a b = if a ≤ b then b else a from rfl]
  simp only [UInt64.le_iff_toNat_le]
  split <;> omega

end Syscall

-- ════════════════════════════════════════════════════════════════════════
-- Builtins
-- ════════════════════════════════════════════════════════════════════════

namespace Builtin

open Syscall

theorem unpaid_copyBytes (target source size : UInt64) :
    Unpaid (copyBytes target source size) :=
  .bind (.slice _ _) fun _ => .bind (.writeSlice _ _) fun _ => .pure _

theorem logMessage_prepaid (address length : UInt64) :
    Prepaid (max 100 length.toNat) (logMessage address length) := by
  unfold logMessage
  dsimp only [chargeAtLeast_eq]
  split
  · exact .refused
  · refine .charge _ _ (toNat_max _ _) fun _ => ?_
    exact .bind (.slice _ _) fun _ => .bind (.message _) fun _ => .pure _

/-- Handling memory has its price by the number of bytes. -/
theorem prepaid_chargeBytes {size : UInt64} {rest : Unit → Syscall UInt64}
    (work : ∀ paid, Unpaid (rest paid)) :
    Prepaid (max 10 (size.toNat / 250)) (chargeBytes size >>= rest) := by
  rw [chargeBytes, chargeAtLeast_eq]
  refine .charge _ rest ?_ work
  rw [toNat_max, UInt64.toNat_div]
  rfl

/-- Every builtin charges according to the price list. -/
theorem invoke_prepaid (builtin : Builtin) (arguments : Arguments) :
    Prepaid (builtin.price arguments) (builtin.invoke arguments) := by
  cases builtin with
  | abort => exact .free _ rfl (.throw _)
  | log => exact logMessage_prepaid _ _
  | log64 => exact .charge _ _ rfl fun _ => .bind (.message _) fun _ => .pure _
  | logComputeUnits => exact .charge _ _ rfl fun _ => .report _
  | memcpy =>
    refine prepaid_chargeBytes fun _ => ?_
    dsimp only
    split
    · exact .throw _
    · exact unpaid_copyBytes _ _ _
  | memmove => exact prepaid_chargeBytes fun _ => unpaid_copyBytes _ _ _
  | memset => exact prepaid_chargeBytes fun _ => .bind (.fillSlice _ _ _) fun _ => .pure _
  | memcmp =>
    exact prepaid_chargeBytes fun _ => .bind (.slice _ _) fun _ => .bind (.slice _ _) fun _ =>
      .bind (.writeSlice _ _) fun _ => .pure _

/-- No two builtins have the same hash. -/
theorem nodup_hashes : (all.map hash).Nodup := by
  decide +kernel

end Builtin

namespace Registry

/-- Entries that are made one after the other under different hashes are all found. -/
theorem getElem?_foldl_insert {α β : Type} (key : α → UInt32) (value : α → β) (items : List α)
    (hnodup : (items.map key).Nodup) (table : Std.HashMap UInt32 β) (hash : UInt32) :
    (items.foldl (fun table item => table.insert (key item) (value item)) table)[hash]? =
      ((items.find? (key · = hash)).map value).or table[hash]? := by
  induction items generalizing table with
  | nil => rfl
  | cons first items ih =>
    rw [List.map_cons, List.nodup_cons] at hnodup
    obtain ⟨hfresh, hrest⟩ := hnodup
    rw [List.foldl_cons, ih hrest, List.find?_cons, Std.HashMap.getElem?_insert]
    by_cases heq : key first = hash
    · have hnone : items.find? (key · = hash) = none := by
        rw [List.find?_eq_none]
        intro other hother hsame
        have hmem : key other ∈ items.map key := List.mem_map_of_mem hother
        rw [of_decide_eq_true hsame, ← heq] at hmem
        exact hfresh hmem
      rw [hnone, decide_eq_true heq, if_pos (beq_iff_eq.2 heq)]
      rfl
    · rw [decide_eq_false heq, if_neg (mt beq_iff_eq.1 heq)]

/-- The registry of builtins is looked up by their hashes. -/
theorem handler?_withBuiltins (hash : UInt32) :
    withBuiltins.handler? hash = (Builtin.ofHash? hash).map Builtin.invoke := by
  have hlookup := getElem?_foldl_insert Builtin.hash
    (fun builtin => ({ name := builtin.name, handler := builtin.invoke } : Registration))
    Builtin.all Builtin.nodup_hashes ∅ hash
  rw [handler?, withBuiltins, hlookup, Std.HashMap.getElem?_empty, Option.or_none, Option.map_map]
  rfl

end Registry

end SbfMachine
