import Mathlib.Data.Nat.Digits.Defs
import SbfMachine.Bytes

/-!
# Laws of byte strings

Byte strings are equal if they have the same size and the same bytes; the operations on them are
described by the bytes of their results. Little-endian numbers are numbers to base 256.

## Main statements

- `Bytes.ext_byteAt` — equality byte by byte
- `Bytes.toNat_readLE` — the number that is stored in a window
- `Bytes.byteAt_encodeLE` — the bytes of a number
- `Bytes.writeLE_eq_overwrite` — storing a number replaces a window by the bytes of the number
-/

namespace SbfMachine.Bytes

theorem ext_byteAt {a b : ByteArray} (hsize : a.size = b.size)
    (hbytes : ∀ i, i < a.size → byteAt a i = byteAt b i) : a = b := by
  apply ByteArray.ext
  apply Array.ext hsize
  intro i ha hb
  have h := hbytes i ha
  rw [byteAt_of_lt ha, byteAt_of_lt hb] at h
  exact h

/-- A number depends only on the bytes of its window. -/
theorem readLE_congr {a b : ByteArray} {start place width : Nat}
    (h : ∀ i, i < width → byteAt a (start + i) = byteAt b (place + i)) :
    readLE a start width = readLE b place width := by
  induction width generalizing start place with
  | zero => rfl
  | succ width ih =>
    rw [readLE, readLE, ih fun i hi => ?_]
    · rw [show byteAt a start = byteAt b place from h 0 (Nat.succ_pos width)]
    · rw [Nat.add_assoc start, Nat.add_assoc place, Nat.add_comm 1]
      exact h (i + 1) (Nat.succ_lt_succ hi)

/-- A window holds the number whose digits to base 256 are its bytes, and that number is less than
256 to the power of the width. -/
theorem toNat_readLE (bytes : ByteArray) (start : Nat) {width : Nat} (hwidth : width ≤ 8) :
    (readLE bytes start width).toNat =
        Nat.ofDigits 256 ((List.range width).map fun i => (byteAt bytes (start + i)).toNat) ∧
      (readLE bytes start width).toNat < 256 ^ width := by
  induction width generalizing start with
  | zero => exact ⟨rfl, Nat.zero_lt_one⟩
  | succ width ih =>
    obtain ⟨hdigits, hlt⟩ := ih (start + 1) (by omega)
    have hbyte := (byteAt bytes start).toNat_lt
    have hpow : 256 ^ (width + 1) ≤ 2 ^ 64 := by
      calc 256 ^ (width + 1) ≤ 256 ^ 8 := Nat.pow_le_pow_right (by decide) hwidth
        _ = 2 ^ 64 := by decide
    have hsum : (readLE bytes start (width + 1)).toNat =
        (byteAt bytes start).toNat + 256 * (readLE bytes (start + 1) width).toNat := by
      rw [readLE, UInt64.toNat_add, UInt64.toNat_mul, UInt8.toNat_toUInt64]
      simp only [UInt64.reduceToNat]
      rw [Nat.pow_succ] at hpow
      omega
    refine ⟨?_, ?_⟩
    · rw [hsum, hdigits, List.range_succ_eq_map, List.map_cons, Nat.ofDigits_cons, List.map_map]
      simp only [Function.comp_def, Nat.add_zero, Nat.succ_eq_add_one, Nat.add_assoc,
        Nat.add_comm 1]
    · rw [hsum, Nat.pow_succ]
      omega

/-- The byte of a number that stands at place `i`. -/
def digit (value : UInt64) (i : Nat) : UInt8 :=
  UInt8.ofNat (value.toNat / 256 ^ i)

theorem digit_zero (value : UInt64) : digit value 0 = value.toUInt8 := by
  simp [digit]

theorem digit_div (value : UInt64) (i : Nat) : digit (value / 256) i = digit value (i + 1) := by
  rw [digit, digit, UInt64.toNat_div, Nat.div_div_eq_div_mul, Nat.pow_succ, Nat.mul_comm]
  rfl

theorem toUInt64_digit (value : UInt64) (i : Nat) :
    (digit value i).toUInt64 = UInt64.ofNat (value.toNat / 256 ^ i % 256) := by
  rw [← UInt64.toNat_inj, digit, UInt8.toNat_toUInt64, UInt8.toNat_ofNat', UInt64.toNat_ofNat']
  omega

/-- Storing a number sets the bytes of its window that exist to the bytes of the number. -/
theorem byteAt_writeLE (bytes : ByteArray) (start : Nat) (value : UInt64) (width i : Nat) :
    byteAt (writeLE bytes start value width) i =
      if start ≤ i ∧ i < start + width ∧ i < bytes.size then digit value (i - start)
      else byteAt bytes i := by
  induction width generalizing bytes start value with
  | zero =>
    rw [writeLE, if_neg]
    omega
  | succ width ih =>
    rw [writeLE, ih, byteAt_setByte, size_setByte, digit_div]
    by_cases hlater : start + 1 ≤ i ∧ i < start + 1 + width ∧ i < bytes.size
    · rw [if_pos hlater, if_pos (by omega), show i - (start + 1) + 1 = i - start by omega]
    · rw [if_neg hlater]
      by_cases hfirst : start = i ∧ start < bytes.size
      · rw [if_pos hfirst, if_pos (by omega), hfirst.1, Nat.sub_self, digit_zero]
      · rw [if_neg hfirst, if_neg (by omega)]

theorem byteAt_pushLE (bytes : ByteArray) (value : UInt64) (width i : Nat) :
    byteAt (pushLE bytes value width) i =
      if bytes.size ≤ i ∧ i < bytes.size + width then digit value (i - bytes.size)
      else byteAt bytes i := by
  induction width generalizing bytes value with
  | zero =>
    rw [pushLE, if_neg]
    omega
  | succ width ih =>
    rw [pushLE, ih, byteAt_push, ByteArray.size_push, digit_div]
    by_cases hlater : bytes.size + 1 ≤ i ∧ i < bytes.size + 1 + width
    · rw [if_pos hlater, if_pos (by omega), show i - (bytes.size + 1) + 1 = i - bytes.size by omega]
    · rw [if_neg hlater]
      by_cases hfirst : i = bytes.size
      · rw [if_pos hfirst, if_pos (by omega), hfirst, Nat.sub_self, digit_zero]
      · rw [if_neg hfirst, if_neg (by omega)]

/-- The bytes of a number, least significant first. -/
theorem byteAt_encodeLE (value : UInt64) (width i : Nat) :
    byteAt (encodeLE value width) i = if i < width then digit value i else 0 := by
  rw [encodeLE, byteAt_pushLE]
  change (if 0 ≤ i ∧ i < 0 + width then digit value (i - 0)
    else byteAt (ByteArray.emptyWithCapacity width) i) = _
  by_cases h : i < width
  · rw [if_pos (by omega), if_pos h, Nat.sub_zero]
  · rw [if_neg (by omega), if_neg h]
    exact byteAt_of_le (Nat.zero_le i)

/-- Storing a number replaces a window by the bytes of the number. -/
theorem writeLE_eq_overwrite (bytes : ByteArray) (start : Nat) (value : UInt64) (width : Nat) :
    writeLE bytes start value width = overwrite bytes start (encodeLE value width) := by
  apply ext_byteAt
  · rw [size_writeLE, size_overwrite]
  · intro i _
    rw [byteAt_writeLE, byteAt_overwrite, size_encodeLE]
    split
    · rw [byteAt_encodeLE, if_pos (by omega)]
    · rfl

/-- Filling replaces a window by as many equal bytes. -/
theorem fill_eq_overwrite (bytes : ByteArray) (start : Nat) (value : UInt8) (count : Nat) :
    fill bytes start value count = overwrite bytes start (fill (zeros count) 0 value count) := by
  apply ext_byteAt
  · rw [size_fill, size_overwrite]
  · intro i _
    rw [byteAt_fill, byteAt_overwrite, size_fill, size_zeros]
    split
    · rw [byteAt_fill, size_zeros, if_pos (by omega)]
    · rfl

/-- Copying a range from one byte string to the same place of another one. -/
theorem overwrite_extract {source target : ByteArray} {start stop : Nat} (hrange : start ≤ stop)
    (hsource : stop ≤ source.size) (htarget : stop ≤ target.size) :
    overwrite target start (source.extract start stop) =
      source.copySlice start target start (stop - start) := by
  have hsize : (source.extract start stop).size = stop - start := by
    rw [ByteArray.size_extract]
    omega
  have hlength : min (stop - start) (target.size - start) = stop - start := by omega
  have hstop : min (start + (0 + (stop - start))) stop = start + (stop - start) := by omega
  have hdata : source.data.size = source.size := rfl
  rw [overwrite, hsize, hlength]
  apply ByteArray.ext
  simp only [ByteArray.copySlice, ByteArray.data_extract, Array.extract_extract, Array.size_extract,
    hstop, hdata]
  congr 2
  omega

/-- Changing a part of a window changes that part of the whole. -/
theorem overwrite_overwrite_extract {bytes data : ByteArray} {start stop offset : Nat}
    (hbytes : stop ≤ bytes.size) (hinside : start + offset + data.size ≤ stop) :
    overwrite bytes start (overwrite (bytes.extract start stop) offset data) =
      overwrite bytes (start + offset) data := by
  have hsize : (bytes.extract start stop).size = stop - start := by
    rw [ByteArray.size_extract]
    omega
  apply ext_byteAt
  · rw [size_overwrite, size_overwrite]
  · intro i hi
    rw [size_overwrite] at hi
    simp only [byteAt_overwrite, size_overwrite, byteAt_extract, hsize]
    by_cases hdata : start + offset ≤ i ∧ i < start + offset + data.size
    · rw [if_pos (by omega), if_pos (by omega), if_pos (by omega), Nat.sub_sub]
    · rw [if_neg (show ¬(start + offset ≤ i ∧ i < start + offset + data.size ∧ i < bytes.size) by
        omega)]
      split
      · rw [if_neg (by omega), if_pos (by omega), Nat.add_sub_cancel' (by omega)]
      · rfl

/-- Storing a number in a window stores it in the whole. -/
theorem overwrite_writeLE_extract {bytes : ByteArray} {start stop offset width : Nat}
    (value : UInt64) (hbytes : stop ≤ bytes.size) (hinside : start + offset + width ≤ stop) :
    overwrite bytes start (writeLE (bytes.extract start stop) offset value width) =
      writeLE bytes (start + offset) value width := by
  rw [writeLE_eq_overwrite, writeLE_eq_overwrite, overwrite_overwrite_extract hbytes]
  rwa [size_encodeLE]

end SbfMachine.Bytes
