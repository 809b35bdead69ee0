import SbfMachine.AddressSpace

/-!
# The compute meter

An execution has a budget of compute units. The meter only goes down: a charge that does not fit
is refused and leaves the balance as it was.

## Main definitions

- `Meter` — limit and balance
- `Meter.charge?`, `Meter.chargeAtLeast?` — paying
- `Meter.used` — what has been paid so far

## Main statements

- `Meter.used_add_remaining` — used and left make up the budget
- `Meter.charge?_eq_some`, `Meter.charge?_eq_none_iff` — charges that fit and charges that do not
-/

namespace SbfMachine

/-- What is left of a budget. -/
structure Meter where
  limit : UInt64
  remaining : UInt64
  /-- Nobody pays in. -/
  remaining_le_limit : remaining ≤ limit

namespace Meter

def new (limit : UInt64) : Meter where
  limit
  remaining := limit
  remaining_le_limit := UInt64.le_refl limit

def used (meter : Meter) : UInt64 :=
  meter.limit - meter.remaining

/-- Pays `cost` units, or nothing if they are not there. -/
def charge? (meter : Meter) (cost : UInt64) : Option Meter :=
  if h : cost ≤ meter.remaining then
    some
      { meter with
        remaining := meter.remaining - cost
        remaining_le_limit := by
          have bound := meter.remaining_le_limit
          rw [UInt64.le_iff_toNat_le] at h bound ⊢
          rw [UInt64.toNat_sub_of_le _ _ (UInt64.le_iff_toNat_le.2 h)]
          omega }
  else none

def chargeAtLeast? (meter : Meter) (lower cost : UInt64) : Option Meter :=
  meter.charge? (max lower cost)

/-- What is used and what is left make up the budget. -/
theorem used_add_remaining (meter : Meter) :
    meter.used.toNat + meter.remaining.toNat = meter.limit.toNat := by
  have bound := UInt64.le_iff_toNat_le.1 meter.remaining_le_limit
  rw [used, UInt64.toNat_sub_of_le _ _ meter.remaining_le_limit]
  omega

/-- A charge that fits lowers the balance by the cost and leaves the budget alone. -/
theorem charge?_eq_some {meter after : Meter} {cost : UInt64}
    (h : meter.charge? cost = some after) :
    after.limit = meter.limit ∧
      after.remaining.toNat + cost.toNat = meter.remaining.toNat := by
  unfold charge? at h
  split at h
  · next fits =>
    obtain rfl := Option.some.inj h
    refine ⟨rfl, ?_⟩
    have bound := UInt64.le_iff_toNat_le.1 fits
    rw [UInt64.toNat_sub_of_le _ _ fits]
    omega
  · cases h

theorem charge?_eq_none_iff {meter : Meter} {cost : UInt64} :
    meter.charge? cost = none ↔ meter.remaining.toNat < cost.toNat := by
  rw [← UInt64.lt_iff_toNat_lt, ← UInt64.not_le]
  unfold charge?
  split <;> simp_all

end Meter

end SbfMachine
