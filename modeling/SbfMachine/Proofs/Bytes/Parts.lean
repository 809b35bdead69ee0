import Mathlib.Data.Nat.Digits.Lemmas
import SbfMachine.Proofs.Bytes

/-!
# Parts of byte strings

A file is put together from parts, and what is read from it later is read from one of the parts.
A byte string holds a part at an offset if the bytes of the part stand there; what is appended and
what is written elsewhere makes no difference to it.

## Main definitions

- `Bytes.Holds` — a part stands at an offset
- `Bytes.AgreeExcept` — two byte strings differ at certain places only

## Main statements

- `Bytes.holds_append_iff` — a part of two pieces
- `Bytes.Holds.toNat_readLE` — numbers are read back
- `Bytes.AgreeExcept.writeLE` — writing the same number into both removes differences
-/

namespace SbfMachine.Bytes

-- ════════════════════════════════════════════════════════════════════════
-- Appending
-- ════════════════════════════════════════════════════════════════════════

theorem byteAt_append (a b : ByteArray) (i : Nat) :
    byteAt (a ++ b) i = if i < a.size then byteAt a i else byteAt b (i - a.size) := by
  simp only [byteAt_eq_getD, ByteArray.data_append, Array.getElem?_append]
  split
  · rw [if_pos (by assumption)]
  · rw [if_neg (by assumption)]
    rfl

theorem zeros_add (a b : Nat) : zeros (a + b) = zeros a ++ zeros b := by
  apply ext_byteAt
  · simp only [size_zeros, ByteArray.size_append]
  · intro i _
    simp only [byteAt_append, byteAt_zeros, ite_self]

theorem byteAt_append_left {a : ByteArray} {i : Nat} (h : i < a.size) (b : ByteArray) :
    byteAt (a ++ b) i = byteAt a i := by
  rw [byteAt_append, if_pos h]

/-- A window of the first of two pieces. -/
theorem extract_append_left {a : ByteArray} {stop : Nat} (h : stop ≤ a.size) (b : ByteArray)
    (start : Nat) : (a ++ b).extract start stop = a.extract start stop := by
  apply ext_byteAt
  · simp only [ByteArray.size_extract, ByteArray.size_append]
    omega
  · intro i _
    rw [byteAt_extract, byteAt_extract]
    split
    · exact byteAt_append_left (by omega) b
    · rfl

theorem pushLE_eq_append (bytes : ByteArray) (value : UInt64) (width : Nat) :
    pushLE bytes value width = bytes ++ encodeLE value width := by
  apply ext_byteAt
  · rw [size_pushLE, ByteArray.size_append, size_encodeLE]
  · intro i hi
    rw [size_pushLE] at hi
    rw [byteAt_pushLE, byteAt_append]
    by_cases hfirst : i < bytes.size
    · rw [if_neg (by omega), if_pos hfirst]
    · rw [if_pos (by omega), if_neg hfirst, byteAt_encodeLE, if_pos (by omega)]

theorem push_eq_append (bytes : ByteArray) (value : UInt8) :
    bytes.push value = bytes ++ encodeLE value.toUInt64 1 := by
  rw [← pushLE_eq_append, pushLE, pushLE, UInt8.toUInt8_toUInt64]

/-- Replacing a window of the first of two pieces leaves the second as it is. -/
theorem overwrite_append_left {a data : ByteArray} {start : Nat} (h : start + data.size ≤ a.size)
    (b : ByteArray) : overwrite (a ++ b) start data = overwrite a start data ++ b := by
  apply ext_byteAt
  · simp only [size_overwrite, ByteArray.size_append]
  · intro i _
    simp only [byteAt_overwrite, byteAt_append, size_overwrite, ByteArray.size_append]
    by_cases hfirst : i < a.size
    · rw [if_pos hfirst, if_pos hfirst]
      by_cases hwindow : start ≤ i ∧ i < start + data.size
      · rw [if_pos (by omega), if_pos (by omega)]
      · rw [if_neg (by omega), if_neg (by omega)]
    · rw [if_neg hfirst, if_neg hfirst, if_neg (by omega)]

/-- Writing into the first of two pieces leaves the second as it is. -/
theorem writeLE_append_left {a b : ByteArray} {start width : Nat} (value : UInt64)
    (h : start + width ≤ a.size) :
    writeLE (a ++ b) start value width = writeLE a start value width ++ b := by
  rw [writeLE_eq_overwrite, writeLE_eq_overwrite, overwrite_append_left]
  rwa [size_encodeLE]

/-- Writing into the second of two pieces leaves the first as it is. -/
theorem writeLE_append_right {a b : ByteArray} {start width : Nat} (value : UInt64) :
    writeLE (a ++ b) (a.size + start) value width = a ++ writeLE b start value width := by
  apply ext_byteAt
  · simp only [size_writeLE, ByteArray.size_append]
  · intro i _
    simp only [byteAt_writeLE, byteAt_append, ByteArray.size_append]
    by_cases hfirst : i < a.size
    · rw [if_pos hfirst, if_neg (by omega), if_pos hfirst]
    · rw [if_neg hfirst, if_neg hfirst]
      by_cases hwindow : a.size + start ≤ i ∧ i < a.size + start + width ∧ i < a.size + b.size
      · rw [if_pos hwindow, if_pos (by omega), Nat.sub_sub]
      · rw [if_neg hwindow, if_neg (by omega)]

theorem writeLE_surrounded {part : ByteArray} {start width : Nat} (front behind : ByteArray)
    (value : UInt64) (h : start + width ≤ part.size) :
    writeLE (front ++ part ++ behind) (front.size + start) value width =
      front ++ writeLE part start value width ++ behind := by
  rw [writeLE_append_left, writeLE_append_right]
  rw [ByteArray.size_append]
  omega

-- ════════════════════════════════════════════════════════════════════════
-- Parts
-- ════════════════════════════════════════════════════════════════════════

/-- The bytes of `part` stand in `bytes` from `offset` on. -/
structure Holds (bytes : ByteArray) (offset : Nat) (part : ByteArray) : Prop where
  inside : offset + part.size ≤ bytes.size
  byteAt : ∀ i, i < part.size → Bytes.byteAt bytes (offset + i) = Bytes.byteAt part i

variable {bytes part a b : ByteArray} {offset : Nat}

theorem holds_self (bytes : ByteArray) : Holds bytes 0 bytes where
  inside := by omega
  byteAt i _ := by rw [Nat.zero_add]

theorem holds_append_iff :
    Holds bytes offset (a ++ b) ↔ Holds bytes offset a ∧ Holds bytes (offset + a.size) b := by
  constructor
  · rintro ⟨hinside, hbyte⟩
    rw [ByteArray.size_append] at hinside hbyte
    refine ⟨⟨by omega, fun i hi => ?_⟩, ⟨by omega, fun i hi => ?_⟩⟩
    · rw [hbyte i (by omega), byteAt_append, if_pos hi]
    · rw [Nat.add_assoc, hbyte (a.size + i) (by omega), byteAt_append, if_neg (by omega),
        Nat.add_sub_cancel_left]
  · rintro ⟨hfirst, hsecond⟩
    have hinside := hsecond.inside
    refine ⟨by rw [ByteArray.size_append]; omega, fun i hi => ?_⟩
    rw [ByteArray.size_append] at hi
    rw [byteAt_append]
    split
    · exact hfirst.byteAt i ‹_›
    · rw [← hsecond.byteAt (i - a.size) (by omega)]
      congr 1
      omega

/-- Appending makes no difference to what stands before. -/
theorem Holds.append (h : Holds bytes offset part) (more : ByteArray) :
    Holds (bytes ++ more) offset part where
  inside := by
    have hinside := h.inside
    rw [ByteArray.size_append]
    omega
  byteAt i hi := by
    have hinside := h.inside
    rw [byteAt_append, if_pos (by omega), h.byteAt i hi]

theorem holds_append_right (a b : ByteArray) : Holds (a ++ b) a.size b := by
  have hboth := holds_append_iff.1 (holds_self (a ++ b))
  simpa only [Nat.zero_add] using hboth.2

theorem holds_surrounded (front part behind : ByteArray) :
    Holds (front ++ part ++ behind) front.size part ∧
      Holds (front ++ part ++ behind) (front.size + part.size) behind := by
  refine ⟨(holds_append_right front part).append behind, ?_⟩
  rw [← ByteArray.size_append]
  exact holds_append_right (front ++ part) behind

/-- What a part holds, the whole holds. -/
theorem Holds.trans {inner : ByteArray} {place : Nat} (h : Holds bytes offset part)
    (hinner : Holds part place inner) : Holds bytes (offset + place) inner where
  inside := by
    have hinside := h.inside
    have hplace := hinner.inside
    omega
  byteAt i hi := by
    have hplace := hinner.inside
    rw [Nat.add_assoc, h.byteAt (place + i) (by omega), hinner.byteAt i hi]

theorem Holds.extract (h : Holds bytes offset part) :
    bytes.extract offset (offset + part.size) = part := by
  have hinside := h.inside
  apply ext_byteAt
  · rw [ByteArray.size_extract]
    omega
  · intro i hi
    rw [ByteArray.size_extract] at hi
    rw [byteAt_extract, if_pos (by omega), h.byteAt i (by omega)]

/-- What a window holds is what the whole holds inside the window. -/
theorem holds_extract_iff {start stop : Nat} (hstart : start ≤ stop) (hstop : stop ≤ bytes.size) :
    Holds (bytes.extract start stop) offset part ↔
      start + offset + part.size ≤ stop ∧ Holds bytes (start + offset) part := by
  have hsize : (bytes.extract start stop).size = stop - start := by
    rw [ByteArray.size_extract]
    omega
  constructor
  · rintro ⟨hinside, hbyte⟩
    rw [hsize] at hinside
    refine ⟨by omega, by omega, fun i hi => ?_⟩
    rw [← hbyte i hi, byteAt_extract, if_pos (by omega), Nat.add_assoc]
  · rintro ⟨hwindow, _, hbyte⟩
    refine ⟨by omega, fun i hi => ?_⟩
    rw [byteAt_extract, if_pos (by omega), ← Nat.add_assoc, hbyte i hi]

theorem Holds.readLE {start width : Nat} (h : Holds bytes offset part)
    (hwindow : start + width ≤ part.size) :
    Bytes.readLE bytes (offset + start) width = Bytes.readLE part start width :=
  readLE_congr fun i hi => by rw [Nat.add_assoc, h.byteAt (start + i) (by omega)]

/-- What keeps the size at every step keeps it over a list. -/
theorem size_foldl {α : Type} {step : ByteArray → α → ByteArray}
    (hstep : ∀ bytes item, (step bytes item).size = bytes.size) (list : List α)
    (bytes : ByteArray) : (list.foldl step bytes).size = bytes.size := by
  induction list generalizing bytes with
  | nil => rfl
  | cons item list ih => rw [List.foldl_cons, ih, hstep]

-- ════════════════════════════════════════════════════════════════════════
-- Numbers
-- ════════════════════════════════════════════════════════════════════════

theorem toNat_digit (value : UInt64) (i : Nat) :
    (digit value i).toNat = value.toNat / 256 ^ i % 256 := by
  rw [digit, UInt8.toNat_ofNat']

/-- Some of the bytes of a number are the number without the lower and the higher ones. -/
theorem toNat_readLE_of_digit {value : UInt64} {start first width : Nat} (hwidth : width ≤ 8)
    (h : ∀ i, i < width → byteAt bytes (start + i) = digit value (first + i)) :
    (readLE bytes start width).toNat = value.toNat / 256 ^ first % 256 ^ width := by
  induction width generalizing start first with
  | zero => simp [readLE, Nat.mod_one]
  | succ width ih =>
    have hrest : (readLE bytes (start + 1) width).toNat =
        value.toNat / 256 ^ (first + 1) % 256 ^ width :=
      ih (by omega) fun i hi => by
        rw [Nat.add_assoc, Nat.add_assoc, Nat.add_comm 1]
        exact h (i + 1) (by omega)
    have hbyte : (byteAt bytes start).toNat = value.toNat / 256 ^ first % 256 := by
      rw [← toNat_digit]
      exact congrArg UInt8.toNat (h 0 (Nat.succ_pos width))
    have hlt := (toNat_readLE bytes start hwidth).2
    have hpow : 256 ^ (width + 1) ≤ 2 ^ 64 := by
      calc 256 ^ (width + 1) ≤ 256 ^ 8 := Nat.pow_le_pow_right (by decide) hwidth
        _ = 2 ^ 64 := by decide
    have hmod : value.toNat / 256 ^ first % (256 * 256 ^ width) =
        value.toNat / 256 ^ first % 256 +
          256 * (value.toNat / 256 ^ (first + 1) % 256 ^ width) := by
      rw [Nat.mod_mul, Nat.div_div_eq_div_mul, ← Nat.pow_succ]
    have hsmall : value.toNat / 256 ^ first % (256 * 256 ^ width) < 256 * 256 ^ width :=
      Nat.mod_lt _ (Nat.mul_pos (by decide) (Nat.pow_pos (by decide)))
    rw [Nat.pow_succ, Nat.mul_comm] at hpow
    rw [readLE, UInt64.toNat_add, UInt64.toNat_mul, UInt8.toNat_toUInt64, hbyte, hrest,
      Nat.pow_succ 256 width, Nat.mul_comm (256 ^ width), hmod]
    simp only [UInt64.reduceToNat]
    omega

theorem toNat_readLE_encodeLE (value : UInt64) {start width total : Nat} (hwidth : width ≤ 8)
    (h : start + width ≤ total) :
    (readLE (encodeLE value total) start width).toNat =
      value.toNat / 256 ^ start % 256 ^ width :=
  toNat_readLE_of_digit hwidth fun i hi => by rw [byteAt_encodeLE, if_pos (by omega)]

/-- A number that has been stored is read back, as far as its bytes were stored. -/
theorem Holds.toNat_readLE {value : UInt64} {width : Nat}
    (h : Holds bytes offset (encodeLE value width)) (hwidth : width ≤ 8) :
    (Bytes.readLE bytes offset width).toNat = value.toNat % 256 ^ width := by
  have hread : Bytes.readLE bytes offset width = Bytes.readLE (encodeLE value width) 0 width :=
    readLE_congr fun i hi => by rw [h.byteAt i (by rwa [size_encodeLE]), Nat.zero_add]
  rw [hread, toNat_readLE_encodeLE value hwidth (Nat.le_of_eq (Nat.zero_add width)), Nat.pow_zero,
    Nat.div_one]

/-- The bytes of a number that is read are those that it is read from. -/
theorem digit_readLE (bytes : ByteArray) (start : Nat) {width i : Nat} (hwidth : width ≤ 8)
    (hi : i < width) : digit (readLE bytes start width) i = byteAt bytes (start + i) := by
  have hlt : ∀ place ∈ (List.range width).map fun i => (byteAt bytes (start + i)).toNat,
      place < 256 := by
    intro place hplace
    obtain ⟨i, _, rfl⟩ := List.mem_map.1 hplace
    exact (byteAt bytes (start + i)).toNat_lt
  have hlength : i < ((List.range width).map fun i => (byteAt bytes (start + i)).toNat).length := by
    rwa [List.length_map, List.length_range]
  rw [← UInt8.toNat_inj, toNat_digit, (toNat_readLE bytes start hwidth).1,
    Nat.ofDigits_div_pow_eq_ofDigits_drop i (by decide) _ hlt, List.drop_eq_getElem_cons hlength,
    Nat.ofDigits_cons, List.getElem_map, List.getElem_range]
  have hbyte := (byteAt bytes (start + i)).toNat_lt
  omega

/-- Where a number is read, its bytes stand. -/
theorem holds_readLE {start width : Nat} (hwidth : width ≤ 8) (h : start + width ≤ bytes.size) :
    Holds bytes start (encodeLE (Bytes.readLE bytes start width) width) where
  inside := by rwa [size_encodeLE]
  byteAt i hi := by
    rw [size_encodeLE] at hi
    rw [byteAt_encodeLE, if_pos hi, digit_readLE bytes start hwidth hi]

-- ════════════════════════════════════════════════════════════════════════
-- Differences
-- ════════════════════════════════════════════════════════════════════════

/-- The place `i` lies in the window of `width` bytes from `start` on. -/
def InWindow (start width i : Nat) : Prop :=
  start ≤ i ∧ i < start + width

instance (start width i : Nat) : Decidable (InWindow start width i) :=
  inferInstanceAs (Decidable (_ ∧ _))

/-- The byte strings have the same size, and the same bytes except at the given places. -/
structure AgreeExcept (places : Nat → Prop) (a b : ByteArray) : Prop where
  size_eq : a.size = b.size
  byteAt : ∀ i, ¬places i → Bytes.byteAt a i = Bytes.byteAt b i

namespace AgreeExcept

variable {places others : Nat → Prop} {c : ByteArray}

theorem refl (places : Nat → Prop) (bytes : ByteArray) : AgreeExcept places bytes bytes :=
  ⟨rfl, fun _ _ => rfl⟩

theorem trans (hab : AgreeExcept places a b) (hbc : AgreeExcept places b c) :
    AgreeExcept places a c :=
  ⟨hab.size_eq.trans hbc.size_eq, fun i hi => (hab.byteAt i hi).trans (hbc.byteAt i hi)⟩

theorem mono (h : AgreeExcept places a b) (hplaces : ∀ i, places i → others i) :
    AgreeExcept others a b :=
  ⟨h.size_eq, fun i hi => h.byteAt i fun hplace => hi (hplaces i hplace)⟩

/-- Byte strings that differ nowhere are equal. -/
theorem eq (h : AgreeExcept places a b) (hnone : ∀ i, ¬places i) : a = b :=
  ext_byteAt h.size_eq fun i _ => h.byteAt i (hnone i)

/-- A number is the same in both if none of its bytes is at one of the places. -/
theorem readLE_eq {start width : Nat} (h : AgreeExcept places a b)
    (hwindow : ∀ i, InWindow start width i → ¬places i) :
    readLE a start width = readLE b start width :=
  readLE_congr fun i hi => h.byteAt (start + i) (hwindow _ ⟨by omega, by omega⟩)

/-- Writing the same number into both removes the differences in its window. -/
theorem writeLE {start width : Nat} (h : AgreeExcept places a b) (value : UInt64) :
    AgreeExcept (fun i => places i ∧ ¬InWindow start width i)
      (Bytes.writeLE a start value width) (Bytes.writeLE b start value width) where
  size_eq := by rw [size_writeLE, size_writeLE, h.size_eq]
  byteAt i hi := by
    rw [byteAt_writeLE, byteAt_writeLE, ← h.size_eq]
    by_cases hinside : i < a.size
    · by_cases hwindow : InWindow start width i
      · rw [if_pos ⟨hwindow.1, hwindow.2, hinside⟩, if_pos ⟨hwindow.1, hwindow.2, hinside⟩]
      · have hplace : ¬places i := fun hplace => hi ⟨hplace, hwindow⟩
        rw [if_neg fun hin => hwindow ⟨hin.1, hin.2.1⟩, if_neg fun hin => hwindow ⟨hin.1, hin.2.1⟩,
          h.byteAt i hplace]
    · have hbeyond : a.size ≤ i := Nat.le_of_not_lt hinside
      rw [if_neg fun hin => hinside hin.2.2, if_neg fun hin => hinside hin.2.2,
        byteAt_of_le hbeyond, byteAt_of_le (h.size_eq ▸ hbeyond)]

end AgreeExcept

/-- What stands at places without differences stands in both. -/
theorem Holds.of_agree {places : Nat → Prop} (h : Holds b offset part)
    (hagree : AgreeExcept places a b) (hwindow : ∀ i, InWindow offset part.size i → ¬places i) :
    Holds a offset part where
  inside := by
    rw [hagree.size_eq]
    exact h.inside
  byteAt i hi := by
    rw [hagree.byteAt (offset + i) (hwindow _ ⟨by omega, by omega⟩), h.byteAt i hi]

/-- Writing a number makes a difference in its window only. -/
theorem agreeExcept_writeLE (bytes : ByteArray) (start : Nat) (value : UInt64) (width : Nat) :
    AgreeExcept (InWindow start width) (writeLE bytes start value width) bytes where
  size_eq := size_writeLE bytes start value width
  byteAt i hi := by
    rw [byteAt_writeLE, if_neg fun hin => hi ⟨hin.1, hin.2.1⟩]

/-- A number that has been written into a byte string is held there. -/
theorem holds_writeLE {start width : Nat} (value : UInt64) (h : start + width ≤ bytes.size) :
    Holds (writeLE bytes start value width) start (encodeLE value width) where
  inside := by rwa [size_writeLE, size_encodeLE]
  byteAt i hi := by
    rw [size_encodeLE] at hi
    rw [byteAt_writeLE, byteAt_encodeLE, if_pos (by omega), if_pos hi, Nat.add_sub_cancel_left]

end SbfMachine.Bytes
