import Mathlib.Algebra.Group.Int.Defs
import Mathlib.Algebra.Group.Nat.Defs
import SbfMachine.Machine.Arithmetic

/-!
# Arithmetic against exact integers

The operations of `AluOp.eval` are defined on machine words. Here each of them is compared with
the operation on integers that it stands for. An operand of an operation of a width is read as the
natural number, or as the two's-complement integer, in its low bits; a result is the word of an
integer modulo `2 ^ bits`, either sign-extended or, for a natural number below `2 ^ bits`,
zero-extended.

## Main definitions

- `AluWidth.nat`, `AluWidth.int` — the two readings of the low bits of a word
- `AluWidth.signed` — the sign-extended word of an integer
- `AluOp.isSigned` — the operations with a sign-extended result
- `ExactArithmetic` — what the operations of a width give for two words

## Main results

- `AluWidth.nat_signed`, `AluWidth.toInt_signed` — the low bits of `AluWidth.signed n` are those of
  `n`, and its high bits repeat the sign
- `AluOp.eval_add` and so on — the result of each operation as a word of a number
- `AluOp.extended_of_eval` — how results are extended
- `Reverses.double` — reversing twice as many digits
- `AluWidth.exactArithmetic` — all of this for two words

## Proof outline

For either width, a result is compared with its specification on numbers: a zero-extended one by
`UInt64.toNat`, a sign-extended one by `UInt64.toInt64` and `Int64.toInt`. Two integers that are
congruent modulo `2 ^ bits` have the same sign-extended word (`AluWidth.signed_congr`), which
settles the wrapping operations without a look at where they wrap.
-/

namespace SbfMachine

namespace AluWidth

/-- The low bits of a word, as a natural number. -/
def nat (width : AluWidth) (word : UInt64) : Nat :=
  word.toNat % 2 ^ width.bits

/-- The low bits of a word, read in two's complement. -/
def int (width : AluWidth) (word : UInt64) : Int :=
  (width.nat word : Int).bmod (2 ^ width.bits)

/-- The word whose low bits are those of an integer and whose high bits repeat their sign. -/
def signed (width : AluWidth) (n : Int) : UInt64 :=
  (Int64.ofInt (n.bmod (2 ^ width.bits))).toUInt64

end AluWidth

/-- The operations whose result is sign-extended; that of the others is zero-extended. -/
def AluOp.isSigned : AluOp → Bool
  | .add | .sub | .mul | .sdiv | .arsh => true
  | _ => false

/-- What the operations of a width give for two words, in terms of the natural numbers and the
integers in the low bits of the words. Shift amounts count modulo the width. -/
structure ExactArithmetic (width : AluWidth) (lhs rhs : UInt64) : Prop where
  add : AluOp.add.eval width lhs rhs = .ok (width.signed (width.nat lhs + width.nat rhs))
  sub : AluOp.sub.eval width lhs rhs = .ok (width.signed (width.nat lhs - width.nat rhs))
  mul : AluOp.mul.eval width lhs rhs = .ok (width.signed (width.nat lhs * width.nat rhs))
  neg : width.negate lhs = width.signed (-width.nat lhs)
  div_divideByZero : AluOp.div.eval width lhs rhs = .error .divideByZero ↔ width.nat rhs = 0
  mod_divideByZero : AluOp.mod.eval width lhs rhs = .error .divideByZero ↔ width.nat rhs = 0
  /-- Unless the divisor is zero, quotient and remainder are those of Euclid's identity. -/
  div_mod : width.nat rhs ≠ 0 →
    ∃ q r : Nat,
      AluOp.div.eval width lhs rhs = .ok (.ofNat q) ∧
      AluOp.mod.eval width lhs rhs = .ok (.ofNat r) ∧
      width.nat lhs = q * width.nat rhs + r ∧ r < width.nat rhs
  sdiv_divideByZero : AluOp.sdiv.eval width lhs rhs = .error .divideByZero ↔ width.int rhs = 0
  sdiv_divideOverflow :
    AluOp.sdiv.eval width lhs rhs = .error .divideOverflow ↔
      width.int lhs = -2 ^ (width.bits - 1) ∧ width.int rhs = -1
  /-- Unless it faults, signed division truncates toward zero. -/
  sdiv :
    width.int rhs ≠ 0 → ¬ (width.int lhs = -2 ^ (width.bits - 1) ∧ width.int rhs = -1) →
      AluOp.sdiv.eval width lhs rhs = .ok (width.signed ((width.int lhs).tdiv (width.int rhs)))
  lsh :
    AluOp.lsh.eval width lhs rhs =
      .ok (.ofNat (width.nat lhs * 2 ^ (width.nat rhs % width.bits) % 2 ^ width.bits))
  rsh :
    AluOp.rsh.eval width lhs rhs =
      .ok (.ofNat (width.nat lhs / 2 ^ (width.nat rhs % width.bits)))
  /-- Arithmetic shift rounds toward minus infinity. -/
  arsh :
    AluOp.arsh.eval width lhs rhs =
      .ok (width.signed ((width.int lhs).fdiv (2 ^ (width.nat rhs % width.bits))))
  or : AluOp.or.eval width lhs rhs = .ok (.ofNat (width.nat lhs ||| width.nat rhs))
  and : AluOp.and.eval width lhs rhs = .ok (.ofNat (width.nat lhs &&& width.nat rhs))
  xor : AluOp.xor.eval width lhs rhs = .ok (.ofNat (width.nat lhs ^^^ width.nat rhs))
  mov : AluOp.mov.eval width lhs rhs = .ok (.ofNat (width.nat rhs))
  /-- Above the width, a result repeats the sign or is zero. -/
  extended : ∀ (op : AluOp) (value : UInt64), op.eval width lhs rhs = .ok value →
    value = if op.isSigned then width.signed (width.nat value) else .ofNat (width.nat value)
  /-- Only the low bits of the operands count. -/
  low : ∀ (op : AluOp) (lhs' rhs' : UInt64),
    width.nat lhs' = width.nat lhs → width.nat rhs' = width.nat rhs →
      op.eval width lhs' rhs' = op.eval width lhs rhs
  neg_low : ∀ lhs' : UInt64, width.nat lhs' = width.nat lhs →
    width.negate lhs' = width.negate lhs
  /-- Conversion to big-endian, done twice, is conversion to little-endian. -/
  swap_swap : ∀ bits : Int32,
    ByteOrder.big.swap bits (ByteOrder.big.swap bits lhs) = ByteOrder.little.swap bits lhs

/-! ## The words of integers -/

namespace AluWidth

theorem nat_w32 (word : UInt64) : w32.nat word = word.toUInt32.toNat :=
  (UInt64.toNat_toUInt32 word).symm

theorem nat_w64 (word : UInt64) : w64.nat word = word.toNat :=
  Nat.mod_eq_of_lt word.toNat_lt

theorem nat_lt (width : AluWidth) (word : UInt64) : width.nat word < 2 ^ width.bits :=
  Nat.mod_lt _ (Nat.two_pow_pos _)

theorem int_w32 (word : UInt64) : w32.int word = word.toUInt32.toInt32.toInt := by
  rw [int, nat_w32, Int32.toInt, UInt32.toBitVec_toInt32, BitVec.toInt_eq_toNat_bmod]
  rfl

theorem int_w64 (word : UInt64) : w64.int word = word.toInt64.toInt := by
  rw [int, nat_w64, Int64.toInt, BitVec.toInt_eq_toNat_bmod]
  rfl

theorem toInt_signed (width : AluWidth) (n : Int) :
    (width.signed n).toInt64.toInt = n.bmod (2 ^ width.bits) := by
  have hvalue : (width.signed n).toInt64.toInt = (n.bmod (2 ^ width.bits)).bmod (2 ^ 64) :=
    Int64.toInt_ofInt
  have hpos : 0 < 2 ^ width.bits := Nat.two_pow_pos _
  have hlow := Int.le_bmod (x := n) hpos
  have hhigh := Int.bmod_lt (x := n) hpos
  have hle : 2 ^ width.bits ≤ 2 ^ 64 := by cases width <;> decide
  rw [hvalue]
  apply Int.bmod_eq_of_le <;> omega

/-- A word and its signed reading have the same low bits. -/
theorem toNat_emod_bits (width : AluWidth) (word : UInt64) :
    (word.toNat : Int) % (2 ^ width.bits : Nat) = word.toInt64.toInt % (2 ^ width.bits : Nat) := by
  have hdvd : ((2 ^ width.bits : Nat) : Int) ∣ (2 ^ 64 : Nat) := by cases width <;> decide
  have hword : word.toInt64.toInt = (word.toNat : Int).bmod (2 ^ 64) :=
    BitVec.toInt_eq_toNat_bmod _
  rw [hword, ← Int.emod_emod_of_dvd _ hdvd, ← Int.emod_emod_of_dvd (Int.bmod _ _) hdvd,
    Int.bmod_emod]

theorem nat_signed (width : AluWidth) (n : Int) :
    (width.nat (width.signed n) : Int) = n % (2 ^ width.bits : Nat) := by
  rw [nat, Int.natCast_emod, toNat_emod_bits, toInt_signed, Int.bmod_emod]

/-- Integers that agree modulo `2 ^ bits` have the same word. -/
theorem signed_congr {width : AluWidth} {m n : Int}
    (h : m % (2 ^ width.bits : Nat) = n % (2 ^ width.bits : Nat)) :
    width.signed m = width.signed n := by
  rw [signed, signed, ← Int.emod_bmod m, h, Int.emod_bmod]

/-- The word of an integer is the word of the number in its low bits. -/
theorem signed_nat_signed (width : AluWidth) (n : Int) :
    width.signed (width.nat (width.signed n)) = width.signed n := by
  refine signed_congr ?_
  rw [nat_signed, Int.emod_emod]

/-- A number below `2 ^ bits` is the number in the low bits of its word. -/
theorem nat_ofNat {width : AluWidth} {n : Nat} (h : n < 2 ^ width.bits) :
    width.nat (.ofNat n) = n := by
  have hle : 2 ^ width.bits ≤ 2 ^ 64 := by cases width <;> decide
  rw [nat, UInt64.toNat_ofNat', Nat.mod_eq_of_lt (Nat.lt_of_lt_of_le h hle), Nat.mod_eq_of_lt h]

/-- A word with the right value in two's complement is the word of the integer. -/
theorem eq_signed {width : AluWidth} {word : UInt64} {n : Int}
    (h : word.toInt64.toInt = n.bmod (2 ^ width.bits)) : word = width.signed n := by
  have hsigned : word.toInt64 = (width.signed n).toInt64 :=
    Int64.toInt_inj.1 (h.trans (toInt_signed width n).symm)
  exact congrArg Int64.toUInt64 hsigned

/-- Sign extension of a 32-bit word that stands for an integer. -/
theorem signExtend_eq_signed {word : UInt32} {n : Int}
    (h : (word.toNat : Int) % (2 ^ 32 : Nat) = n % (2 ^ 32 : Nat)) :
    signExtend word = w32.signed n := by
  refine Eq.trans (eq_signed ?_) (signed_congr h)
  exact (Int32.toInt_toInt64 _).trans (BitVec.toInt_eq_toNat_bmod _)

/-- A 64-bit word that stands for an integer. -/
theorem word_eq_signed {word : UInt64} {n : Int}
    (h : (word.toNat : Int) % (2 ^ 64 : Nat) = n % (2 ^ 64 : Nat)) :
    word = w64.signed n := by
  refine Eq.trans (eq_signed ?_) (signed_congr h)
  exact BitVec.toInt_eq_toNat_bmod _

/-- Sign extension of a 32-bit word, read in two's complement. -/
theorem signExtend_toUInt32 (value : Int32) :
    signExtend value.toUInt32 = w32.signed value.toInt :=
  eq_signed ((Int32.toInt_toInt64 value).trans (Int32.toInt_bmod value).symm)

theorem toUInt64_eq_signed (value : Int64) : value.toUInt64 = w64.signed value.toInt :=
  eq_signed (Int64.toInt_bmod value).symm

/-- Zero extension of a 32-bit word. -/
theorem toUInt64_eq_ofNat (word : UInt32) : word.toUInt64 = .ofNat word.toNat := by
  have hlt := word.toNat_lt
  rw [← UInt64.toNat_inj, UInt32.toNat_toUInt64, UInt64.toNat_ofNat', Nat.mod_eq_of_lt (by omega)]

theorem toNat_eq_zero_w32 {word : UInt32} : word.toNat = 0 ↔ word = 0 :=
  UInt32.toNat_inj (b := 0)

theorem toNat_eq_zero_w64 {word : UInt64} : word.toNat = 0 ↔ word = 0 :=
  UInt64.toNat_inj (b := 0)

/-- A word and its reading in two's complement are equally good to compare with a constant. -/
theorem int_w32_eq_iff (word : UInt64) (constant : UInt32) :
    w32.int word = constant.toInt32.toInt ↔ word.toUInt32 = constant := by
  rw [int_w32, Int32.toInt_inj]
  exact ⟨congrArg Int32.toUInt32, congrArg UInt32.toInt32⟩

theorem int_w64_eq_iff (word constant : UInt64) :
    w64.int word = constant.toInt64.toInt ↔ word = constant := by
  rw [int_w64, Int64.toInt_inj]
  exact ⟨congrArg Int64.toUInt64, congrArg UInt64.toInt64⟩

/-! ### Shift amounts -/

theorem toNat_amount_w32 (amount : UInt32) : (amount % 32).toNat % 32 = amount.toNat % 32 := by
  rw [UInt32.toNat_mod]
  exact Nat.mod_mod _ _

theorem toNat_amount_w64 (amount : UInt64) : (amount % 64).toNat % 64 = amount.toNat % 64 := by
  rw [UInt64.toNat_mod]
  exact Nat.mod_mod _ _

/-- A shift amount below the width counts the same when it is read as a signed number. -/
theorem smod_amount_w32 (amount : UInt32) :
    ((amount % 32).toInt32.toBitVec.smod 32).toNat = amount.toNat % 32 := by
  have hsmall : ∀ n < 32, ((BitVec.ofNat 32 n).smod 32).toNat = n := by decide
  have hlt : amount.toNat % 32 < 32 := Nat.mod_lt _ (by decide)
  have hword : (amount % 32).toInt32.toBitVec = BitVec.ofNat 32 (amount.toNat % 32) := by
    rw [← BitVec.toNat_inj, BitVec.toNat_ofNat, Nat.mod_eq_of_lt (by omega)]
    exact UInt32.toNat_mod amount 32
  rw [hword, hsmall _ hlt]

theorem smod_amount_w64 (amount : UInt64) :
    ((amount % 64).toInt64.toBitVec.smod 64).toNat = amount.toNat % 64 := by
  have hsmall : ∀ n < 64, ((BitVec.ofNat 64 n).smod 64).toNat = n := by decide
  have hlt : amount.toNat % 64 < 64 := Nat.mod_lt _ (by decide)
  have hword : (amount % 64).toInt64.toBitVec = BitVec.ofNat 64 (amount.toNat % 64) := by
    rw [← BitVec.toNat_inj, BitVec.toNat_ofNat, Nat.mod_eq_of_lt (by omega)]
    exact UInt64.toNat_mod amount 64
  rw [hword, hsmall _ hlt]

theorem shiftRight_eq_fdiv (n : Int) (amount : Nat) : n >>> amount = n.fdiv (2 ^ amount) := by
  rw [Int.shiftRight_eq_div_pow, Int.fdiv_eq_ediv_of_nonneg _ (Int.pow_nonneg (by decide)),
    Int.natCast_pow]
  rfl

end AluWidth

/-! ## The operations -/

namespace AluOp

variable (width : AluWidth) (lhs rhs : UInt64)

open AluWidth

theorem eval_add :
    AluOp.add.eval width lhs rhs = .ok (width.signed (width.nat lhs + width.nat rhs)) := by
  cases width with
  | w32 =>
    refine congrArg Except.ok (signExtend_eq_signed ?_)
    rw [UInt32.toNat_add, nat_w32, nat_w32]
    omega
  | w64 =>
    refine congrArg Except.ok (word_eq_signed ?_)
    rw [UInt64.toNat_add, nat_w64, nat_w64]
    omega

theorem eval_sub :
    AluOp.sub.eval width lhs rhs = .ok (width.signed (width.nat lhs - width.nat rhs)) := by
  cases width with
  | w32 =>
    refine congrArg Except.ok (signExtend_eq_signed ?_)
    have := rhs.toUInt32.toNat_lt
    rw [UInt32.toNat_sub, nat_w32, nat_w32]
    omega
  | w64 =>
    refine congrArg Except.ok (word_eq_signed ?_)
    have := rhs.toNat_lt
    rw [UInt64.toNat_sub, nat_w64, nat_w64]
    omega

theorem eval_mul :
    AluOp.mul.eval width lhs rhs = .ok (width.signed (width.nat lhs * width.nat rhs)) := by
  cases width with
  | w32 =>
    refine congrArg Except.ok (signExtend_eq_signed ?_)
    rw [UInt32.toNat_mul, nat_w32, nat_w32, Int.natCast_emod, Int.emod_emod,
      Int.natCast_mul]
  | w64 =>
    refine congrArg Except.ok (word_eq_signed ?_)
    rw [UInt64.toNat_mul, nat_w64, nat_w64, Int.natCast_emod, Int.emod_emod,
      Int.natCast_mul]

theorem negate_eq : width.negate lhs = width.signed (-width.nat lhs) := by
  cases width with
  | w32 =>
    refine signExtend_eq_signed ?_
    have := lhs.toUInt32.toNat_lt
    rw [UInt32.toNat_sub, nat_w32, UInt32.toNat_zero]
    omega
  | w64 =>
    refine Eq.trans (b := 0 - lhs) rfl (word_eq_signed ?_)
    have := lhs.toNat_lt
    rw [UInt64.toNat_sub, nat_w64, UInt64.toNat_zero]
    omega

theorem eval_div :
    AluOp.div.eval width lhs rhs =
      if width.nat rhs = 0 then .error .divideByZero
      else .ok (.ofNat (width.nat lhs / width.nat rhs)) := by
  cases width with
  | w32 =>
    simp only [eval, eval32, nat_w32, toNat_eq_zero_w32, toUInt64_eq_ofNat, UInt32.toNat_div]
  | w64 =>
    simp only [eval, eval64, nat_w64, toNat_eq_zero_w64, ← UInt64.toNat_div, UInt64.ofNat_toNat]

theorem eval_mod :
    AluOp.mod.eval width lhs rhs =
      if width.nat rhs = 0 then .error .divideByZero
      else .ok (.ofNat (width.nat lhs % width.nat rhs)) := by
  cases width with
  | w32 =>
    simp only [eval, eval32, nat_w32, toNat_eq_zero_w32, toUInt64_eq_ofNat, UInt32.toNat_mod]
  | w64 =>
    simp only [eval, eval64, nat_w64, toNat_eq_zero_w64, ← UInt64.toNat_mod, UInt64.ofNat_toNat]

theorem eval_sdiv :
    AluOp.sdiv.eval width lhs rhs =
      if width.int rhs = 0 then .error .divideByZero
      else if width.int lhs = -2 ^ (width.bits - 1) ∧ width.int rhs = -1 then
        .error .divideOverflow
      else .ok (width.signed ((width.int lhs).tdiv (width.int rhs))) := by
  cases width with
  | w32 =>
    have hquotient : signExtend (lhs.toUInt32.toInt32 / rhs.toUInt32.toInt32).toUInt32 =
        w32.signed ((w32.int lhs).tdiv (w32.int rhs)) := by
      rw [signExtend_toUInt32, Int32.toInt_div, ← int_w32, ← int_w32]
      exact signed_congr Int.bmod_emod
    have hzero : w32.int rhs = 0 ↔ rhs.toUInt32 = 0 := int_w32_eq_iff rhs 0
    have hleast : w32.int lhs = -2 ^ (w32.bits - 1) ↔ lhs.toUInt32 = 0x80000000 :=
      int_w32_eq_iff lhs 0x80000000
    have hminusOne : w32.int rhs = -1 ↔ rhs.toUInt32 = 0xffffffff := int_w32_eq_iff rhs 0xffffffff
    simp only [eval, eval32, hquotient, hzero, hleast, hminusOne]
  | w64 =>
    have hquotient : (lhs.toInt64 / rhs.toInt64).toUInt64 =
        w64.signed ((w64.int lhs).tdiv (w64.int rhs)) := by
      rw [toUInt64_eq_signed, Int64.toInt_div, ← int_w64, ← int_w64]
      exact signed_congr Int.bmod_emod
    have hzero : w64.int rhs = 0 ↔ rhs = 0 := int_w64_eq_iff rhs 0
    have hleast : w64.int lhs = -2 ^ (w64.bits - 1) ↔ lhs = 0x8000000000000000 :=
      int_w64_eq_iff lhs 0x8000000000000000
    have hminusOne : w64.int rhs = -1 ↔ rhs = 0xffffffffffffffff :=
      int_w64_eq_iff rhs 0xffffffffffffffff
    simp only [eval, eval64, hquotient, hzero, hleast, hminusOne]

theorem eval_lsh :
    AluOp.lsh.eval width lhs rhs =
      .ok (.ofNat (width.nat lhs * 2 ^ (width.nat rhs % width.bits) % 2 ^ width.bits)) := by
  cases width with
  | w32 =>
    have hvalue : (lhs.toUInt32 <<< (rhs.toUInt32 % 32)).toNat =
        w32.nat lhs * 2 ^ (w32.nat rhs % 32) % 2 ^ 32 := by
      rw [UInt32.toNat_shiftLeft, Nat.shiftLeft_eq, toNat_amount_w32, nat_w32, nat_w32]
    simp only [eval, eval32, toUInt64_eq_ofNat, hvalue, bits]
  | w64 =>
    have hvalue : (lhs <<< (rhs % 64)).toNat =
        w64.nat lhs * 2 ^ (w64.nat rhs % 64) % 2 ^ 64 := by
      rw [UInt64.toNat_shiftLeft, Nat.shiftLeft_eq, toNat_amount_w64, nat_w64, nat_w64]
    simp only [eval, eval64, ← hvalue, bits, UInt64.ofNat_toNat]

theorem eval_rsh :
    AluOp.rsh.eval width lhs rhs =
      .ok (.ofNat (width.nat lhs / 2 ^ (width.nat rhs % width.bits))) := by
  cases width with
  | w32 =>
    have hvalue : (lhs.toUInt32 >>> (rhs.toUInt32 % 32)).toNat =
        w32.nat lhs / 2 ^ (w32.nat rhs % 32) := by
      rw [UInt32.toNat_shiftRight, Nat.shiftRight_eq_div_pow, toNat_amount_w32, nat_w32, nat_w32]
    simp only [eval, eval32, toUInt64_eq_ofNat, hvalue, bits]
  | w64 =>
    have hvalue : (lhs >>> (rhs % 64)).toNat = w64.nat lhs / 2 ^ (w64.nat rhs % 64) := by
      rw [UInt64.toNat_shiftRight, Nat.shiftRight_eq_div_pow, toNat_amount_w64, nat_w64, nat_w64]
    simp only [eval, eval64, ← hvalue, bits, UInt64.ofNat_toNat]

theorem eval_arsh :
    AluOp.arsh.eval width lhs rhs =
      .ok (width.signed ((width.int lhs).fdiv (2 ^ (width.nat rhs % width.bits)))) := by
  cases width with
  | w32 =>
    have hvalue : (lhs.toUInt32.toInt32 >>> (rhs.toUInt32 % 32).toInt32).toInt =
        (w32.int lhs).fdiv (2 ^ (w32.nat rhs % 32)) := by
      rw [Int32.toInt, Int32.toBitVec_shiftRight, BitVec.toInt_sshiftRight',
        shiftRight_eq_fdiv, smod_amount_w32, int_w32, nat_w32]
      rfl
    simp only [eval, eval32, signExtend_toUInt32, hvalue, bits]
  | w64 =>
    have hvalue : (lhs.toInt64 >>> (rhs % 64).toInt64).toInt =
        (w64.int lhs).fdiv (2 ^ (w64.nat rhs % 64)) := by
      rw [Int64.toInt, Int64.toBitVec_shiftRight, BitVec.toInt_sshiftRight',
        shiftRight_eq_fdiv, smod_amount_w64, int_w64, nat_w64]
      rfl
    simp only [eval, eval64, toUInt64_eq_signed, hvalue, bits]

theorem eval_or : AluOp.or.eval width lhs rhs = .ok (.ofNat (width.nat lhs ||| width.nat rhs)) := by
  cases width with
  | w32 => rw [nat_w32, nat_w32, ← UInt32.toNat_or, ← toUInt64_eq_ofNat]; rfl
  | w64 => rw [nat_w64, nat_w64, ← UInt64.toNat_or, UInt64.ofNat_toNat]; rfl

theorem eval_and :
    AluOp.and.eval width lhs rhs = .ok (.ofNat (width.nat lhs &&& width.nat rhs)) := by
  cases width with
  | w32 => rw [nat_w32, nat_w32, ← UInt32.toNat_and, ← toUInt64_eq_ofNat]; rfl
  | w64 => rw [nat_w64, nat_w64, ← UInt64.toNat_and, UInt64.ofNat_toNat]; rfl

theorem eval_xor :
    AluOp.xor.eval width lhs rhs = .ok (.ofNat (width.nat lhs ^^^ width.nat rhs)) := by
  cases width with
  | w32 => rw [nat_w32, nat_w32, ← UInt32.toNat_xor, ← toUInt64_eq_ofNat]; rfl
  | w64 => rw [nat_w64, nat_w64, ← UInt64.toNat_xor, UInt64.ofNat_toNat]; rfl

theorem eval_mov : AluOp.mov.eval width lhs rhs = .ok (.ofNat (width.nat rhs)) := by
  cases width with
  | w32 => rw [nat_w32, ← toUInt64_eq_ofNat]; rfl
  | w64 => rw [nat_w64, UInt64.ofNat_toNat]; rfl

variable {width lhs rhs} in
/-- Above the width, a result repeats the sign or is zero. -/
theorem extended_of_eval (op : AluOp) {value : UInt64} (h : op.eval width lhs rhs = .ok value) :
    value = if op.isSigned then width.signed (width.nat value) else .ofNat (width.nat value) := by
  have hlhs := width.nat_lt lhs
  have hrhs := width.nat_lt rhs
  have signed {n : Int} (h : (.ok (width.signed n) : Except Fault UInt64) = .ok value) :
      value = width.signed (width.nat value) := by
    cases h
    exact (signed_nat_signed width n).symm
  have unsigned {n : Nat} (h : (.ok (.ofNat n) : Except Fault UInt64) = .ok value)
      (hn : n < 2 ^ width.bits) : value = .ofNat (width.nat value) := by
    cases h
    rw [nat_ofNat hn]
  cases op with
  | add => exact signed ((eval_add width lhs rhs).symm.trans h)
  | sub => exact signed ((eval_sub width lhs rhs).symm.trans h)
  | mul => exact signed ((eval_mul width lhs rhs).symm.trans h)
  | arsh => exact signed ((eval_arsh width lhs rhs).symm.trans h)
  | sdiv =>
    rw [eval_sdiv] at h
    split at h
    · cases h
    · split at h
      · cases h
      · exact signed h
  | div =>
    rw [eval_div] at h
    split at h
    · cases h
    · exact unsigned h (Nat.lt_of_le_of_lt (Nat.div_le_self _ _) hlhs)
  | mod =>
    rw [eval_mod] at h
    split at h
    · cases h
    · exact unsigned h (Nat.lt_of_le_of_lt (Nat.mod_le _ _) hlhs)
  | lsh => exact unsigned ((eval_lsh width lhs rhs).symm.trans h) (Nat.mod_lt _ (Nat.two_pow_pos _))
  | rsh =>
    exact unsigned ((eval_rsh width lhs rhs).symm.trans h)
      (Nat.lt_of_le_of_lt (Nat.div_le_self _ _) hlhs)
  | or => exact unsigned ((eval_or width lhs rhs).symm.trans h) (Nat.or_lt_two_pow hlhs hrhs)
  | and => exact unsigned ((eval_and width lhs rhs).symm.trans h) (Nat.and_lt_two_pow _ hrhs)
  | xor => exact unsigned ((eval_xor width lhs rhs).symm.trans h) (Nat.xor_lt_two_pow hlhs hrhs)
  | mov => exact unsigned ((eval_mov width lhs rhs).symm.trans h) hrhs

/-- Operands with the same low bits have the same result. -/
theorem eval_congr (op : AluOp) {lhs' rhs' : UInt64} (hlhs : width.nat lhs' = width.nat lhs)
    (hrhs : width.nat rhs' = width.nat rhs) :
    op.eval width lhs' rhs' = op.eval width lhs rhs := by
  cases width with
  | w32 =>
    rw [nat_w32, nat_w32, UInt32.toNat_inj] at hlhs hrhs
    rw [eval, eval, hlhs, hrhs]
  | w64 =>
    rw [nat_w64, nat_w64, UInt64.toNat_inj] at hlhs hrhs
    rw [hlhs, hrhs]

end AluOp

/-! ## Byte orders

The three reversals are built alike: the low `n * n` values of a word are two digits to base `n`,
which change places while each of them is reversed itself. -/

/-- The function reverses the low digits of a word, which are those of its remainder by `n`. -/
structure Reverses (reverse : UInt64 → UInt64) (n : Nat) : Prop where
  lt : ∀ value, (reverse value).toNat < n
  /-- Whatever stands above the digits, reversing the reversed digits restores them. -/
  restores : ∀ value word, word.toNat % n = (reverse value).toNat →
    (reverse word).toNat = value.toNat % n

theorem Reverses.twice {reverse : UInt64 → UInt64} {n : Nat} (h : Reverses reverse n)
    (value : UInt64) : (reverse (reverse value)).toNat = value.toNat % n :=
  h.restores value (reverse value) (Nat.mod_eq_of_lt (h.lt value))

theorem Reverses.double {reverse : UInt64 → UInt64} {n : UInt64} (h : Reverses reverse n.toNat)
    (hfits : n.toNat * n.toNat ≤ 2 ^ 64) :
    Reverses (fun value => reverse value * n + reverse (value / n)) (n.toNat * n.toNat) := by
  have hlt (value : UInt64) :
      (reverse value).toNat * n.toNat + (reverse (value / n)).toNat < n.toNat * n.toNat := by
    have hlow := h.lt value
    have hhigh := h.lt (value / n)
    calc (reverse value).toNat * n.toNat + (reverse (value / n)).toNat
        < (reverse value).toNat * n.toNat + n.toNat := by omega
      _ = ((reverse value).toNat + 1) * n.toNat := (Nat.succ_mul _ _).symm
      _ ≤ n.toNat * n.toNat := Nat.mul_le_mul_right _ hlow
  have hvalue (value : UInt64) :
      (reverse value * n + reverse (value / n)).toNat =
        (reverse value).toNat * n.toNat + (reverse (value / n)).toNat := by
    have := hlt value
    rw [UInt64.toNat_add, UInt64.toNat_mul, Nat.mod_add_mod, Nat.mod_eq_of_lt (by omega)]
  refine ⟨fun value => Nat.lt_of_le_of_lt (Nat.le_of_eq (hvalue value)) (hlt value), ?_⟩
  intro value word hword
  rw [hvalue] at hword ⊢
  have hpos : 0 < n.toNat := Nat.lt_of_le_of_lt (Nat.zero_le _) (h.lt value)
  have hlow : (reverse word).toNat = value.toNat / n.toNat % n.toNat := by
    rw [← UInt64.toNat_div]
    refine h.restores (value / n) word ?_
    rw [← Nat.mod_mul_left_mod word.toNat n.toNat n.toNat, hword, Nat.mul_add_mod_self_right,
      Nat.mod_eq_of_lt (h.lt _)]
  have hhigh : (reverse (word / n)).toNat = value.toNat % n.toNat := by
    refine h.restores value (word / n) ?_
    rw [UInt64.toNat_div, ← Nat.mod_mul_right_div_self, hword, Nat.mul_comm,
      Nat.mul_add_div hpos, Nat.div_eq_of_lt (h.lt _), Nat.add_zero]
  rw [hlow, hhigh, Nat.mod_mul, Nat.mul_comm, Nat.add_comm]

theorem reverses_reverse16 : Reverses reverse16 0x10000 := by
  have hbyte : Reverses (· % 0x100) (0x100 : UInt64).toNat := by
    have hvalue (value : UInt64) : (value % 0x100).toNat = value.toNat % 0x100 :=
      UInt64.toNat_mod value 0x100
    refine ⟨fun value => ?_, fun value word hword => ?_⟩
    · exact Nat.lt_of_le_of_lt (Nat.le_of_eq (hvalue value)) (Nat.mod_lt _ (by decide))
    · exact (hvalue word).trans (hword.trans (hvalue value))
  exact hbyte.double (by decide)

theorem reverses_reverse32 : Reverses reverse32 0x100000000 :=
  Reverses.double (n := 0x10000) reverses_reverse16 (by decide)

theorem reverses_reverse64 : Reverses reverse64 (2 ^ 64) :=
  Reverses.double (n := 0x100000000) reverses_reverse32 (by decide)

/-- Conversion to big-endian, done twice, is conversion to little-endian. -/
theorem ByteOrder.big_swap_swap (bits : Int32) (value : UInt64) :
    ByteOrder.big.swap bits (ByteOrder.big.swap bits value) = ByteOrder.little.swap bits value := by
  rw [← UInt64.toNat_inj]
  simp only [swap]
  split
  · exact (reverses_reverse16.twice value).trans (UInt64.toNat_mod value 0x10000).symm
  · split
    · exact (reverses_reverse32.twice value).trans (UInt64.toNat_mod value 0x100000000).symm
    · exact (reverses_reverse64.twice value).trans (Nat.mod_eq_of_lt value.toNat_lt)

/-- Every operation gives its exact result, for either width and all words. -/
theorem AluWidth.exactArithmetic (width : AluWidth) (lhs rhs : UInt64) :
    ExactArithmetic width lhs rhs where
  add := AluOp.eval_add width lhs rhs
  sub := AluOp.eval_sub width lhs rhs
  mul := AluOp.eval_mul width lhs rhs
  neg := AluOp.negate_eq width lhs
  div_divideByZero := by
    rw [AluOp.eval_div]
    split <;> simp_all
  mod_divideByZero := by
    rw [AluOp.eval_mod]
    split <;> simp_all
  div_mod hrhs := by
    refine ⟨_, _, ?_, ?_, (Nat.div_add_mod' _ _).symm, Nat.mod_lt _ (Nat.pos_of_ne_zero hrhs)⟩
    · rw [AluOp.eval_div, if_neg hrhs]
    · rw [AluOp.eval_mod, if_neg hrhs]
  sdiv_divideByZero := by
    rw [AluOp.eval_sdiv]
    split
    · simp_all
    · split <;> simp_all
  sdiv_divideOverflow := by
    rw [AluOp.eval_sdiv]
    split
    · simp_all
    · split <;> simp_all
  sdiv hrhs hoverflow := by rw [AluOp.eval_sdiv, if_neg hrhs, if_neg hoverflow]
  lsh := AluOp.eval_lsh width lhs rhs
  rsh := AluOp.eval_rsh width lhs rhs
  arsh := AluOp.eval_arsh width lhs rhs
  or := AluOp.eval_or width lhs rhs
  and := AluOp.eval_and width lhs rhs
  xor := AluOp.eval_xor width lhs rhs
  mov := AluOp.eval_mov width lhs rhs
  extended op _ h := AluOp.extended_of_eval op h
  low op _ _ hlhs hrhs := AluOp.eval_congr width lhs rhs op hlhs hrhs
  neg_low lhs' hlhs := by rw [AluOp.negate_eq, AluOp.negate_eq, hlhs]
  swap_swap bits := ByteOrder.big_swap_swap bits lhs

end SbfMachine
