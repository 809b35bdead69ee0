import Mathlib.Order.Interval.Set.Basic
import SbfMachine.Elf.Layout

/-!
# Ranges with a byte in common

Two ranges are compared by where they begin and where they end, and an end that does not fit into a
word is cut off at the largest word. As the end of a range is the place behind its last byte, this
cuts off one byte too many: the byte at the largest word lies in no range any more. So the check
is exact for ranges that begin before that byte, wherever they end, and a range that begins there
overlaps nothing, not even itself.

## Main definitions

- `Meet` — two ranges have a byte in common

## Main statements

- `meet_iff` — each of two ranges begins before the other one ends
- `overlaps_iff_meet` — what the check decides for ranges of words
- `lastByte_overlaps_nothing` — a range that has a byte in common with itself and is not found
-/

namespace SbfMachine.Elf

/-- The ranges of `aSize` bytes from `a` on and of `bSize` bytes from `b` on have a byte in
common. -/
def Meet (a aSize b bSize : Nat) : Prop :=
  (Set.Ico a (a + aSize) ∩ Set.Ico b (b + bSize)).Nonempty

section Ranges

variable {a aSize b bSize : Nat}

/-- Ranges meet iff neither is empty and each begins before the other one ends. -/
theorem meet_iff :
    Meet a aSize b bSize ↔ aSize ≠ 0 ∧ bSize ≠ 0 ∧ a < b + bSize ∧ b < a + aSize := by
  constructor
  · rintro ⟨x, ⟨ha, ha'⟩, hb, hb'⟩
    exact ⟨by omega, by omega, by omega, by omega⟩
  · rintro ⟨haSize, hbSize, hab, hba⟩
    -- The later of the two starts is in both ranges.
    refine ⟨max a b, ⟨Nat.le_max_left a b, ?_⟩, ⟨Nat.le_max_right a b, ?_⟩⟩
    · exact Nat.max_lt.2 ⟨by omega, hba⟩
    · exact Nat.max_lt.2 ⟨hab, by omega⟩

theorem meet_comm : Meet a aSize b bSize ↔ Meet b bSize a aSize := by
  unfold Meet
  rw [Set.inter_comm]

theorem meet_self : Meet a aSize a aSize ↔ aSize ≠ 0 := by
  rw [meet_iff]
  omega

/-- The check finds the ranges that meet and that both begin before the largest word. -/
theorem overlaps_iff :
    overlaps a aSize b bSize = true ↔ Meet a aSize b bSize ∧ a < maxWord ∧ b < maxWord := by
  rw [meet_iff]
  simp only [overlaps, Bool.and_eq_true, decide_eq_true_eq, Nat.lt_min]
  omega

theorem overlaps_comm : overlaps a aSize b bSize = overlaps b bSize a aSize := by
  rw [Bool.eq_iff_iff, overlaps_iff, overlaps_iff, meet_comm, and_comm (a := a < maxWord)]

end Ranges

/-- For ranges of words, the check is exact unless one of them begins at the largest word. It does
not depend on the order of the two, and finds that a range overlaps itself unless it is empty or
begins at the largest word. -/
theorem overlaps_iff_meet (a aSize b bSize : UInt64) :
    (overlaps a.toNat aSize.toNat b.toNat bSize.toNat = true ↔
      Meet a.toNat aSize.toNat b.toNat bSize.toNat ∧ a.toNat ≠ maxWord ∧ b.toNat ≠ maxWord) ∧
    overlaps a.toNat aSize.toNat b.toNat bSize.toNat =
      overlaps b.toNat bSize.toNat a.toNat aSize.toNat ∧
    (overlaps a.toNat aSize.toNat a.toNat aSize.toNat = true ↔
      aSize ≠ 0 ∧ a.toNat ≠ maxWord) := by
  have hword (word : UInt64) : word.toNat < maxWord ↔ word.toNat ≠ maxWord := by
    have hlt := word.toNat_lt
    simp only [maxWord, UInt64.size]
    omega
  have hempty : aSize.toNat ≠ 0 ↔ aSize ≠ 0 := by
    rw [ne_eq, ← UInt64.toNat_zero, UInt64.toNat_inj]
  refine ⟨?_, overlaps_comm, ?_⟩
  · rw [overlaps_iff, hword, hword]
  · rw [overlaps_iff, meet_self, hword, hempty, and_self]

/-- The range that consists of the byte at the largest word meets itself, and the check does not
find it. -/
theorem lastByte_overlaps_nothing :
    Meet maxWord 1 maxWord 1 ∧ overlaps maxWord 1 maxWord 1 = false :=
  ⟨meet_self.2 (by decide), by decide⟩

end SbfMachine.Elf
