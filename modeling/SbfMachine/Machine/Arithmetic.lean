import SbfMachine.Failure
import SbfMachine.Isa.Opcode

/-!
# Arithmetic

The values that instructions compute, as functions on 64-bit words.

Operations of width 32 look at the low halves of their operands. The results of addition,
subtraction, multiplication, negation, signed division and arithmetic shift are sign-extended to
64 bits, those of the other operations are zero-extended. Shift amounts count modulo the width.

## Main definitions

- `AluOp.eval` — the binary operations
- `negate`, `AluWidth.negate` — negation
- `ByteOrder.swap` — conversion to a byte order
- `Condition.holds` — the conditions of jumps
-/

namespace SbfMachine

/-- A 32-bit word, sign-extended. -/
def signExtend (word : UInt32) : UInt64 :=
  word.toInt32.toInt64.toUInt64

/-- The binary operations on 32-bit words. -/
def AluOp.eval32 (op : AluOp) (a b : UInt32) : Except Fault UInt64 :=
  match op with
  | .add => .ok (signExtend (a + b))
  | .sub => .ok (signExtend (a - b))
  | .mul => .ok (signExtend (a * b))
  | .div => if b = 0 then .error .divideByZero else .ok (a / b).toUInt64
  | .mod => if b = 0 then .error .divideByZero else .ok (a % b).toUInt64
  | .sdiv =>
    if b = 0 then .error .divideByZero
    else if a = 0x80000000 ∧ b = 0xffffffff then .error .divideOverflow
    else .ok (signExtend (a.toInt32 / b.toInt32).toUInt32)
  | .or => .ok (a ||| b).toUInt64
  | .and => .ok (a &&& b).toUInt64
  | .xor => .ok (a ^^^ b).toUInt64
  | .lsh => .ok (a <<< (b % 32)).toUInt64
  | .rsh => .ok (a >>> (b % 32)).toUInt64
  | .arsh => .ok (signExtend (a.toInt32 >>> (b % 32).toInt32).toUInt32)
  | .mov => .ok b.toUInt64

/-- The binary operations on 64-bit words. -/
def AluOp.eval64 (op : AluOp) (a b : UInt64) : Except Fault UInt64 :=
  match op with
  | .add => .ok (a + b)
  | .sub => .ok (a - b)
  | .mul => .ok (a * b)
  | .div => if b = 0 then .error .divideByZero else .ok (a / b)
  | .mod => if b = 0 then .error .divideByZero else .ok (a % b)
  | .sdiv =>
    if b = 0 then .error .divideByZero
    else if a = 0x8000000000000000 ∧ b = 0xffffffffffffffff then .error .divideOverflow
    else .ok (a.toInt64 / b.toInt64).toUInt64
  | .or => .ok (a ||| b)
  | .and => .ok (a &&& b)
  | .xor => .ok (a ^^^ b)
  | .lsh => .ok (a <<< (b % 64))
  | .rsh => .ok (a >>> (b % 64))
  | .arsh => .ok (a.toInt64 >>> (b % 64).toInt64).toUInt64
  | .mov => .ok b

/-- The binary operations on words of the given width. -/
def AluOp.eval (op : AluOp) (width : AluWidth) (a b : UInt64) : Except Fault UInt64 :=
  match width with
  | .w32 => op.eval32 a.toUInt32 b.toUInt32
  | .w64 => op.eval64 a b

/-- Negation of a word of the given width. -/
def AluWidth.negate (width : AluWidth) (value : UInt64) : UInt64 :=
  match width with
  | .w32 => signExtend (0 - value.toUInt32)
  | .w64 => 0 - value

/-- The low two bytes of a word, exchanged. -/
def reverse16 (value : UInt64) : UInt64 :=
  value % 0x100 * 0x100 + value / 0x100 % 0x100

/-- The low four bytes of a word in reverse order. -/
def reverse32 (value : UInt64) : UInt64 :=
  reverse16 value * 0x10000 + reverse16 (value / 0x10000)

/-- The eight bytes of a word in reverse order. -/
def reverse64 (value : UInt64) : UInt64 :=
  reverse32 value * 0x100000000 + reverse32 (value / 0x100000000)

/-- The low `bits` of a word in the given byte order; the words of the machine are
little-endian. -/
def ByteOrder.swap (order : ByteOrder) (bits : Int32) (value : UInt64) : UInt64 :=
  match order with
  | .little =>
    if bits = 16 then value % 0x10000
    else if bits = 32 then value % 0x100000000
    else value
  | .big =>
    if bits = 16 then reverse16 value
    else if bits = 32 then reverse32 value
    else reverse64 value

/-- Whether a condition holds of two words. -/
def Condition.holds (condition : Condition) (a b : UInt64) : Bool :=
  match condition with
  | .eq => a == b
  | .ne => a != b
  | .gt => b < a
  | .ge => b ≤ a
  | .lt => a < b
  | .le => a ≤ b
  | .set => a &&& b != 0
  | .sgt => b.toInt64 < a.toInt64
  | .sge => b.toInt64 ≤ a.toInt64
  | .slt => a.toInt64 < b.toInt64
  | .sle => a.toInt64 ≤ b.toInt64

end SbfMachine
