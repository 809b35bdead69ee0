import SbfMachine.Proofs.Bytes.Parts
import SbfMachine.Proofs.Program.WellFormed

/-!
# Call hashes of slots do not collide

Every step of the hash can be undone: a rotation moves the bits around, a shift that is mixed in
leaves the upper bits in place, and the factors are odd. A slot number below 2^32 fills one block
of the hash and leaves the other one empty, so it can be found again from its hash.

## Main statements

- `Murmur3.absorb_injective_block`, `Murmur3.finish_injective` — the steps of the hash
- `CallHash.ofSlot_injective` — two slots below 2^32 have different hashes
- `FunctionTable.Within.exists_register` — functions below 2^32 can always be entered
-/

namespace SbfMachine

namespace Murmur3

-- ════════════════════════════════════════════════════════════════════════
-- Steps that can be undone
-- ════════════════════════════════════════════════════════════════════════

theorem eq_of_testBit {x y : UInt32}
    (h : ∀ i, i < 32 → x.toNat.testBit i = y.toNat.testBit i) : x = y := by
  rw [← UInt32.toNat_inj]
  apply Nat.eq_of_testBit_eq
  intro i
  by_cases hi : i < 32
  · exact h i hi
  · have hpow : 2 ^ 32 ≤ 2 ^ i := Nat.pow_le_pow_right (by decide) (Nat.le_of_not_lt hi)
    rw [Nat.testBit_lt_two_pow (Nat.lt_of_lt_of_le x.toNat_lt hpow),
      Nat.testBit_lt_two_pow (Nat.lt_of_lt_of_le y.toNat_lt hpow)]

/-- A rotation by `n` moves bit `i` to place `i + n`, which starts again behind place 31. -/
theorem testBit_rotateLeft (x : UInt32) {n : UInt32} (hpos : 0 < n.toNat) (hlt : n.toNat < 32)
    {i : Nat} (hi : i < 32) :
    (rotateLeft x n).toNat.testBit ((i + n.toNat) % 32) = x.toNat.testBit i := by
  have hback : (32 - n).toNat = 32 - n.toNat := by
    rw [UInt32.toNat_sub_of_le _ _ (by rw [UInt32.le_iff_toNat_le]; exact Nat.le_of_lt hlt)]
    rfl
  have hbound : x.toNat < 2 ^ 32 := x.toNat_lt
  simp only [rotateLeft, UInt32.toNat_or, UInt32.toNat_shiftLeft, UInt32.toNat_shiftRight, hback,
    Nat.mod_eq_of_lt hlt, Nat.mod_eq_of_lt (show 32 - n.toNat < 32 by omega), Nat.testBit_or,
    Nat.testBit_mod_two_pow, Nat.testBit_shiftLeft, Nat.testBit_shiftRight]
  by_cases hwrap : i + n.toNat < 32
  · have hhigh : x.toNat.testBit (32 - n.toNat + (i + n.toNat)) = false :=
      Nat.testBit_lt_two_pow
        (Nat.lt_of_lt_of_le hbound (Nat.pow_le_pow_right (by decide) (by omega)))
    rw [Nat.mod_eq_of_lt hwrap, hhigh]
    simp [hwrap]
  · have hplace : (i + n.toNat) % 32 = i + n.toNat - 32 := by omega
    rw [hplace, show 32 - n.toNat + (i + n.toNat - 32) = i by omega]
    have hlow : ¬n.toNat ≤ i + n.toNat - 32 := by omega
    simp [hlow]

theorem rotateLeft_injective {x y n : UInt32} (hpos : 0 < n.toNat) (hlt : n.toNat < 32)
    (h : rotateLeft x n = rotateLeft y n) : x = y :=
  eq_of_testBit fun i hi => by
    rw [← testBit_rotateLeft x hpos hlt hi, ← testBit_rotateLeft y hpos hlt hi, h]

/-- A shift to the right that is mixed in leaves the upper bits in place, and from them the lower
bits follow one by one. -/
theorem xorShift_injective {x y n : UInt32} (hpos : 0 < n.toNat) (hlt : n.toNat < 32)
    (h : x ^^^ (x >>> n) = y ^^^ (y >>> n)) : x = y := by
  have hbits (i : Nat) :
      (x.toNat.testBit i ^^ x.toNat.testBit (n.toNat + i)) =
        (y.toNat.testBit i ^^ y.toNat.testBit (n.toNat + i)) := by
    have hbit := congrArg (fun word => word.toNat.testBit i) h
    simpa only [UInt32.toNat_xor, UInt32.toNat_shiftRight, Nat.mod_eq_of_lt hlt, Nat.testBit_xor,
      Nat.testBit_shiftRight] using hbit
  -- By induction on the number of places from the top.
  have hdown (places : Nat) : ∀ i, 32 ≤ i + places → x.toNat.testBit i = y.toNat.testBit i := by
    induction places with
    | zero =>
      intro i hi
      have hpow : 2 ^ 32 ≤ 2 ^ i := Nat.pow_le_pow_right (by decide) hi
      rw [Nat.testBit_lt_two_pow (Nat.lt_of_lt_of_le x.toNat_lt hpow),
        Nat.testBit_lt_two_pow (Nat.lt_of_lt_of_le y.toNat_lt hpow)]
    | succ places ih =>
      intro i hi
      have habove := ih (n.toNat + i) (by omega)
      have hbit := hbits i
      rw [habove] at hbit
      exact Bool.xor_left_inj.1 hbit
  exact eq_of_testBit fun i _ => hdown 32 i (by omega)

/-- A factor with an inverse can be cancelled. -/
theorem mul_injective {x y factor : UInt32} (inverse : UInt32) (hinverse : factor * inverse = 1)
    (h : x * factor = y * factor) : x = y := by
  calc x = x * (factor * inverse) := by rw [hinverse, UInt32.mul_one]
    _ = y * (factor * inverse) := by rw [← UInt32.mul_assoc, h, UInt32.mul_assoc]
    _ = y := by rw [hinverse, UInt32.mul_one]

theorem xor_injective {x y mask : UInt32} (h : x ^^^ mask = y ^^^ mask) : x = y :=
  (UInt32.xor_left_inj mask).1 h

theorem scramble_injective {x y : UInt32} (h : scramble x = scramble y) : x = y := by
  have hrotated := mul_injective 0x56ed309b (by decide) h
  have hproduct := rotateLeft_injective (by decide) (by decide) hrotated
  exact mul_injective 0xdee13bb1 (by decide) hproduct

theorem mixed_injective {x y : UInt32}
    (h : rotateLeft x 13 * 5 + 0xe6546b64 = rotateLeft y 13 * 5 + 0xe6546b64) : x = y := by
  have hproduct := (UInt32.add_left_inj _).1 h
  have hrotated := mul_injective 0xcccccccd (by decide) hproduct
  exact rotateLeft_injective (by decide) (by decide) hrotated

/-- From the state that a block leads to, the state before can be found, given the block. -/
theorem absorb_injective_state {x y block : UInt32} (h : absorb x block = absorb y block) :
    x = y :=
  xor_injective (mixed_injective h)

/-- From the state that a block leads to, the block can be found, given the state before. -/
theorem absorb_injective_block {state x y : UInt32} (h : absorb state x = absorb state y) :
    x = y := by
  have hmixed := mixed_injective h
  rw [UInt32.xor_comm state, UInt32.xor_comm state] at hmixed
  exact scramble_injective (xor_injective hmixed)

theorem finish_injective {x y : UInt32} (h : finish x = finish y) : x = y := by
  have hthird := xorShift_injective (by decide) (by decide) h
  have hsecond := mul_injective 0x7ed1b41d (by decide) hthird
  have hmiddle := xorShift_injective (by decide) (by decide) hsecond
  have hfirst := mul_injective 0xa5cb9243 (by decide) hmiddle
  exact xorShift_injective (by decide) (by decide) hfirst

/-- Eight bytes are two blocks and nothing else. -/
theorem hash_of_size_eq_eight {bytes : ByteArray} (h : bytes.size = 8) :
    hash bytes =
      finish (absorb (absorb 0 (Bytes.readLE bytes 0 4).toUInt32)
        (Bytes.readLE bytes 4 4).toUInt32 ^^^ 8) := by
  simp only [hash, h, Nat.reduceDiv, Nat.reduceMod, absorbBlocks, Nat.zero_add, if_pos]
  rfl

end Murmur3

-- ════════════════════════════════════════════════════════════════════════
-- Slot numbers
-- ════════════════════════════════════════════════════════════════════════

namespace CallHash

open Murmur3

/-- The two blocks of a slot number: the number itself and an empty one. -/
theorem ofSlot_eq {slot : Nat} (h : slot < UInt32.size) :
    ofSlot slot = finish (absorb (absorb 0 (UInt32.ofNat slot)) 0 ^^^ 8) := by
  have hword : (UInt64.ofNat slot).toNat = slot :=
    UInt64.toNat_ofNat_of_lt' (Nat.lt_trans h (by decide))
  have hlow : (Bytes.readLE (Bytes.encodeLE (UInt64.ofNat slot) 8) 0 4).toNat =
      (UInt64.ofNat slot).toNat / 256 ^ 0 % 256 ^ 4 :=
    Bytes.toNat_readLE_encodeLE _ (by decide) (by decide)
  have hhigh : (Bytes.readLE (Bytes.encodeLE (UInt64.ofNat slot) 8) 4 4).toNat =
      (UInt64.ofNat slot).toNat / 256 ^ 4 % 256 ^ 4 :=
    Bytes.toNat_readLE_encodeLE _ (by decide) (by decide)
  rw [hword] at hlow hhigh
  have hfirst :
      (Bytes.readLE (Bytes.encodeLE (UInt64.ofNat slot) 8) 0 4).toUInt32 = UInt32.ofNat slot := by
    rw [← UInt32.toNat_inj, UInt64.toNat_toUInt32, hlow, UInt32.toNat_ofNat']
    simp only [UInt32.size] at h
    omega
  have hsecond : (Bytes.readLE (Bytes.encodeLE (UInt64.ofNat slot) 8) 4 4).toUInt32 = 0 := by
    rw [← UInt32.toNat_inj, UInt64.toNat_toUInt32, hhigh]
    simp only [UInt32.size] at h
    simp only [UInt32.toNat_zero]
    omega
  rw [ofSlot, hash_of_size_eq_eight (Bytes.size_encodeLE _ 8), hfirst, hsecond]

/-- Two slots below 2^32 have different hashes. -/
theorem ofSlot_injective {p q : Nat} (hp : p < UInt32.size) (hq : q < UInt32.size)
    (h : ofSlot p = ofSlot q) : p = q := by
  rw [ofSlot_eq hp, ofSlot_eq hq] at h
  have hblock := absorb_injective_block
    (absorb_injective_state (xor_injective (finish_injective h)))
  have hnumber := congrArg UInt32.toNat hblock
  rwa [UInt32.toNat_ofNat_of_lt' hp, UInt32.toNat_ofNat_of_lt' hq] at hnumber

end CallHash

-- ════════════════════════════════════════════════════════════════════════
-- Function tables
-- ════════════════════════════════════════════════════════════════════════

namespace FunctionTable

/-- A function below 2^32 can be entered next to others below 2^32. -/
theorem Within.exists_register {functions : FunctionTable} {count slot : Nat}
    (hwithin : functions.Within count) (hcount : count ≤ UInt32.size) (hslot : slot < count) :
    ∃ registered, functions.register slot = .ok (CallHash.ofSlot slot, registered) := by
  unfold FunctionTable.register
  dsimp only
  split
  · next existing hexisting =>
    obtain ⟨hhash, hlt⟩ := hwithin _ _ hexisting
    have hsame : existing = slot :=
      CallHash.ofSlot_injective (Nat.lt_of_lt_of_le hlt hcount) (Nat.lt_of_lt_of_le hslot hcount)
        hhash.symm
    exact ⟨functions, by rw [if_pos hsame]⟩
  · exact ⟨_, rfl⟩

end FunctionTable

end SbfMachine
