import SbfMachine.Proofs.Syscall.Charges

/-!
# System calls under two budgets

Two programs that have used equally much of different budgets see the same memory, and their logs
differ only in the balances that they report. A system call that pays in advance cannot tell them
apart: it does the same for both, unless one budget is enough for its price and the other is not.

## Main definitions

- `SameLine` — lines that differ in nothing but a balance that they report
- `Context.Twins` — contexts that differ in their budgets alone
- `Threshold` — what happens on the two sides of a budget
- `Syscall.SameResult` — results that differ in the budgets alone
- `Syscall.Short` — the result of an action that runs out of its budget

## Main statements

- `Threshold.trans` — what is needed first, and what is needed altogether
- `Context.Twins.charge` — a charge fits into the other budget if what is used then does
- `Syscall.Unpaid.same` — without a price, an action does the same under both budgets
- `Syscall.Prepaid.threshold` — with a price, it does so if the other budget is enough for it
-/

namespace SbfMachine

/-- A line under one budget and the same line under another: reports of a balance differ by as much
as the budgets do, and other lines do not differ. -/
inductive SameLine (budget other : UInt64) : String → String → Prop
  | report (balance shifted : Nat)
      (difference : shifted + budget.toNat = balance + other.toNat) :
      SameLine budget other (balanceLine balance) (balanceLine shifted)
  | same (line : String) (noReport : ∀ balance, line ≠ balanceLine balance) :
      SameLine budget other line line

/-- What a program has to say is no report of a balance. -/
theorem message_ne_balanceLine (message : String) (balance : Nat) :
    "Program log: " ++ message ≠ balanceLine balance := by
  intro h
  have hchars := congrArg String.toList h
  unfold balanceLine at hchars
  rw [String.toList_append, String.toList_append, String.toList_append, List.append_assoc] at hchars
  -- The two beginnings differ in the ninth letter.
  have hninth := congrArg (·[8]?) hchars
  rw [List.getElem?_append_left (by decide), List.getElem?_append_left (by decide)] at hninth
  exact absurd hninth (by decide)

namespace Context

/-- The context `d` under the budget `other` is like `c` under `budget`: memory and what has been
used are the same, and so are the logs up to reports of the balance. -/
structure Twins (budget other : UInt64) (c d : Context) : Prop where
  memory : d.memory = c.memory
  limit_left : c.meter.limit = budget
  limit_right : d.meter.limit = other
  used : d.meter.used = c.meter.used
  log : List.Forall₂ (SameLine budget other) c.log.toList d.log.toList

variable {budget other : UInt64} {c d : Context}

/-- What has been used is inside the other budget, too. -/
theorem Twins.used_le (h : Twins budget other c d) : c.meter.used.toNat ≤ other.toNat := by
  have hmeter := d.meter.used_add_remaining
  rw [h.used, h.limit_right] at hmeter
  omega

/-- The balances differ by as much as the budgets. -/
theorem Twins.remaining_add (h : Twins budget other c d) :
    d.meter.remaining.toNat + budget.toNat = c.meter.remaining.toNat + other.toNat := by
  have hc := c.meter.used_add_remaining
  have hd := d.meter.used_add_remaining
  rw [h.limit_left] at hc
  rw [h.used, h.limit_right] at hd
  omega

/-- Twins stay twins when their memories become the same. -/
theorem Twins.withMemory (h : Twins budget other c d) (memory : Memory) :
    Twins budget other { c with memory } { d with memory } :=
  ⟨rfl, h.limit_left, h.limit_right, h.used, h.log⟩

/-- Twins stay twins when the same is logged for both. -/
theorem Twins.push (h : Twins budget other c d) {line line' : String}
    (hline : SameLine budget other line line') :
    Twins budget other { c with log := c.log.push line } { d with log := d.log.push line' } := by
  refine ⟨h.memory, h.limit_left, h.limit_right, h.used, ?_⟩
  simp only [Array.toList_push]
  exact List.rel_append h.log (.cons hline .nil)

end Context

/-- What happens when `used` units of a budget are needed: `same` if they are there, and `short` if
they are not. -/
structure Threshold (budget : UInt64) (used : Nat) (same short : Prop) : Prop where
  same : used ≤ budget.toNat → same
  short : budget.toNat < used → short

section Threshold

variable {budget : UInt64} {used : Nat} {same same' short short' : Prop}

theorem Threshold.imp (h : Threshold budget used same short) (hsame : same → same')
    (hshort : short → short') : Threshold budget used same' short' :=
  ⟨hsame ∘ h.same, hshort ∘ h.short⟩

/-- A budget that is too small for what is needed first is too small for all that is needed. -/
theorem Threshold.trans {later : Nat} (h : Threshold budget used same short) (hle : used ≤ later)
    (hsame : same → Threshold budget later same' short') (hshort : short → short') :
    Threshold budget later same' short' := by
  by_cases hfits : used ≤ budget.toNat
  · exact hsame (h.same hfits)
  · have hless := Nat.lt_of_not_le hfits
    refine ⟨fun hmore => ?_, fun _ => hshort (h.short hless)⟩
    omega

end Threshold

/-- A charge fits into the other budget if what is used then does. -/
theorem Context.Twins.charge {budget other : UInt64} {c d : Context}
    (h : Twins budget other c d) {cost : UInt64} {meter : Meter}
    (hcharge : c.meter.charge? cost = some meter) :
    Threshold other meter.used.toNat
      (∃ meter', d.meter.charge? cost = some meter' ∧
        Twins budget other { c with meter } { d with meter := meter' })
      (d.meter.charge? cost = none) := by
  obtain ⟨hlimit, hremaining⟩ := Meter.charge?_eq_some hcharge
  have hbalance := h.remaining_add
  have hafter := meter.used_add_remaining
  have hlimits : meter.limit = budget := hlimit.trans h.limit_left
  rw [hlimits] at hafter
  constructor
  · intro hfits
    cases hcharge' : d.meter.charge? cost with
    | none =>
      have hshort := Meter.charge?_eq_none_iff.1 hcharge'
      omega
    | some meter' =>
      obtain ⟨hlimit', hremaining'⟩ := Meter.charge?_eq_some hcharge'
      have hafter' := meter'.used_add_remaining
      rw [hlimit', h.limit_right] at hafter'
      refine ⟨meter', rfl, h.memory, hlimits, hlimit'.trans h.limit_right, ?_, h.log⟩
      show meter'.used = meter.used
      apply UInt64.toNat_inj.1
      omega
  · intro hshort
    apply Meter.charge?_eq_none_iff.2
    omega

namespace Syscall

variable {budget other : UInt64} {α : Type} {action : Syscall α}

/-- The same result, in contexts that are twins. -/
inductive SameResult (budget other : UInt64) :
    EStateM.Result Fault Context α → EStateM.Result Fault Context α → Prop
  | ok {c d : Context} (value : α) (twins : Context.Twins budget other c d) :
      SameResult budget other (.ok value c) (.ok value d)
  | error {c d : Context} (fault : Fault) (twins : Context.Twins budget other c d) :
      SameResult budget other (.error fault c) (.error fault d)

/-- The action has run out of its budget. -/
def Short (result : EStateM.Result Fault Context α) : Prop :=
  ∃ context, result = .error .outOfCompute context

/-- Without a price, an action does the same under both budgets. -/
theorem Unpaid.same (h : Unpaid action) {c d : Context} (htwins : Context.Twins budget other c d) :
    SameResult budget other (action c) (action d) := by
  induction h generalizing c d with
  | pure value => exact .ok value htwins
  | throw fault => exact .error fault htwins
  | slice address size =>
    unfold Syscall.slice
    rw [htwins.memory]
    cases c.memory.read address size.toNat with
    | ok bytes => exact .ok bytes htwins
    | error fault => exact .error fault htwins
  | writeSlice address data =>
    unfold Syscall.writeSlice
    rw [htwins.memory]
    cases c.memory.window address data.size true with
    | ok window => exact .ok () (htwins.withMemory _)
    | error fault => exact .error fault htwins
  | fillSlice address size value =>
    unfold Syscall.fillSlice
    rw [htwins.memory]
    cases c.memory.window address size.toNat true with
    | ok window => exact .ok () (htwins.withMemory _)
    | error fault => exact .error fault htwins
  | message text => exact .ok () (htwins.push (.same _ (message_ne_balanceLine text)))
  | report value => exact .ok value (htwins.push (.report _ _ htwins.remaining_add))
  | @bind _ _ first rest _ _ hfirst hrest =>
    have hsame := hfirst htwins
    rw [bind_apply, bind_apply]
    generalize first c = result, first d = result' at hsame ⊢
    cases hsame with
    | ok value twins => exact hrest value twins
    | error fault twins => exact .error fault twins

/-- With a price, an action does the same under both budgets, if what is used then is there. -/
theorem Prepaid.threshold {price : Nat} (h : Prepaid price action) {c d : Context}
    (htwins : Context.Twins budget other c d) (hsolvent : ¬ Short (action c)) :
    Threshold other (contextOf (action c)).meter.used.toNat
      (SameResult budget other (action c) (action d)) (Short (action d)) := by
  cases h with
  | charge cost rest _ work =>
    rw [bind_apply, Syscall.charge] at hsolvent ⊢
    rw [bind_apply, Syscall.charge]
    cases hcharge : c.meter.charge? cost with
    | none => exact absurd ⟨c, by rw [hcharge]⟩ hsolvent
    | some meter =>
      have hthreshold := htwins.charge hcharge
      have hkept : (contextOf (rest () { c with meter })).meter = meter :=
        ((work ()).logs { c with meter }).meter
      dsimp only
      rw [hkept]
      refine hthreshold.imp ?_ ?_
      · rintro ⟨meter', hcharge', htwins'⟩
        rw [hcharge']
        exact (work ()).same htwins'
      · intro hshort
        rw [hshort]
        exact ⟨d, rfl⟩
  | free _ _ work =>
    refine ⟨fun _ => work.same htwins, fun hshort => ?_⟩
    have hused := htwins.used_le
    rw [(work.logs c).meter] at hshort
    omega
  | refused => exact absurd ⟨c, rfl⟩ hsolvent

end Syscall

end SbfMachine
