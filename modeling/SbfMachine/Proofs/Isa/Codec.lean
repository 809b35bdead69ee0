import SbfMachine.Proofs.Isa.Slot
import SbfMachine.Proofs.Program.Split

/-!
# Encoding and decoding of slots

The five fields of a slot share out the bits of one word: eight for the opcode, four for each
register, sixteen for the offset and thirty-two for the immediate. So a slot and its word determine
each other. A text is the bytes of its slots in a row, so slots are found again at their indices,
and a text of whole slots is the encoding of the slots that are read from it.

## Main definitions

- `decodeText` — the slots of a text
- `SlotCodec` — how slots, words and texts determine each other

## Main statements

- `Slot.toNat_toWord` — where the fields stand in the word
- `Slot.ofWord_toWord`, `Slot.toWord_ofWord` — slots and words
- `holds_encodeText_iff` — a text holds a row of slots iff it holds each of them at its place
- `slotCodec` — slots and texts
-/

namespace SbfMachine

-- ════════════════════════════════════════════════════════════════════════
-- Slots and words
-- ════════════════════════════════════════════════════════════════════════

namespace Slot

/-- The number of a slot: its fields in a row, the opcode lowest. -/
theorem toNat_toWord (slot : Slot) :
    slot.toWord.toNat = slot.opcode.toNat + 2 ^ 8 * slot.dst + 2 ^ 12 * slot.src +
      2 ^ 16 * slot.off.toUInt16.toNat + 2 ^ 32 * slot.uimm.toNat := by
  have hopcode := slot.opcode.toNat_lt
  have hdst := slot.dst.isLt
  have hsrc := slot.src.isLt
  have hoff := slot.off.toUInt16.toNat_lt
  have himm := slot.uimm.toNat_lt
  simp only [toWord, UInt64.toNat_add, UInt64.toNat_mul, UInt8.toNat_toUInt64,
    UInt16.toNat_toUInt64, UInt32.toNat_toUInt64, UInt64.toNat_ofNat', UInt64.reduceToNat]
  omega

/-- The fields that are read from a word are its bits. -/
theorem fields_ofWord (word : UInt64) :
    (ofWord word).opcode.toNat = word.toNat % 2 ^ 8 ∧
      (ofWord word).dst.val = word.toNat / 2 ^ 8 % 2 ^ 4 ∧
      (ofWord word).src.val = word.toNat / 2 ^ 12 % 2 ^ 4 ∧
      (ofWord word).off.toUInt16.toNat = word.toNat / 2 ^ 16 % 2 ^ 16 ∧
      (ofWord word).uimm.toNat = word.toNat / 2 ^ 32 := by
  have hword := word.toNat_lt
  refine ⟨?_, ?_, ?_, ?_, ?_⟩
  · exact UInt64.toNat_toUInt8 word
  · simp only [ofWord, Fin.val_ofNat, UInt64.toNat_div, UInt64.reduceToNat, Nat.reducePow]
  · simp only [ofWord, Fin.val_ofNat, UInt64.toNat_div, UInt64.reduceToNat, Nat.reducePow]
  · simp only [ofWord, UInt16.toUInt16_toInt16, UInt64.toNat_toUInt16, UInt64.toNat_div,
      UInt64.reduceToNat, Nat.reducePow]
  · simp only [ofWord, uimm, UInt32.toUInt32_toInt32, UInt64.toNat_toUInt32, UInt64.toNat_div,
      UInt64.reduceToNat, Nat.reducePow]
    omega

theorem toWord_ofWord (word : UInt64) : (ofWord word).toWord = word := by
  obtain ⟨hopcode, hdst, hsrc, hoff, himm⟩ := fields_ofWord word
  rw [← UInt64.toNat_inj, toNat_toWord, hopcode, hdst, hsrc, hoff, himm]
  omega

/-- Slots with the same word have the same fields. -/
theorem toWord_injective {slot other : Slot} (h : slot.toWord = other.toWord) : slot = other := by
  have hnumber := congrArg UInt64.toNat h
  rw [toNat_toWord, toNat_toWord] at hnumber
  have hopcode := slot.opcode.toNat_lt
  have hopcode' := other.opcode.toNat_lt
  have hoff := slot.off.toUInt16.toNat_lt
  have hoff' := other.off.toUInt16.toNat_lt
  obtain ⟨opcode, dst, src, off, imm⟩ := slot
  obtain ⟨opcode', dst', src', off', imm'⟩ := other
  dsimp only [uimm] at *
  have hopcode : opcode = opcode' := UInt8.toNat_inj.1 (by omega)
  have hdst : dst = dst' := Fin.ext (by omega)
  have hsrc : src = src' := Fin.ext (by omega)
  have hoff : off.toUInt16 = off'.toUInt16 := UInt16.toNat_inj.1 (by omega)
  have himm : imm.toUInt32 = imm'.toUInt32 := UInt32.toNat_inj.1 (by omega)
  rw [hopcode, hdst, hsrc, ← Int16.toInt16_toUInt16 off, hoff, Int16.toInt16_toUInt16,
    ← Int32.toInt32_toUInt32 imm, himm, Int32.toInt32_toUInt32]

@[simp]
theorem ofWord_toWord (slot : Slot) : ofWord slot.toWord = slot :=
  toWord_injective (toWord_ofWord slot.toWord)

/-- A register number of four bits stays what it is as a byte. -/
theorem new_fields (slot : Slot) :
    new slot.opcode (UInt8.ofNat slot.dst) (UInt8.ofNat slot.src) slot.off slot.imm = slot := by
  have hregister (number : Fin 16) : Fin.ofNat 16 (UInt8.ofNat number).toNat = number := by
    have hlt := number.isLt
    rw [Fin.ext_iff, Fin.val_ofNat, UInt8.toNat_ofNat']
    omega
  rw [new, hregister, hregister]

/-- A new immediate takes the place of the high half of the word. -/
theorem toNat_toWord_withImm (slot : Slot) (imm : UInt32) :
    (slot.withImm imm).toWord.toNat = slot.toWord.toNat % 2 ^ 32 + 2 ^ 32 * imm.toNat := by
  have hopcode := slot.opcode.toNat_lt
  have hdst := slot.dst.isLt
  have hsrc := slot.src.isLt
  have hoff := slot.off.toUInt16.toNat_lt
  rw [toNat_toWord, toNat_toWord, uimm_withImm]
  dsimp only [withImm]
  omega

theorem size_toBytes (slot : Slot) : slot.toBytes.size = slotSize :=
  Bytes.size_encodeLE slot.toWord slotSize

/-- Where the bytes of a slot stand, the slot is read. -/
theorem atOffset_of_holds {bytes : ByteArray} {start : Nat} {slot : Slot}
    (h : Bytes.Holds bytes start slot.toBytes) : atOffset bytes start = slot := by
  have hword : Bytes.readLE bytes start slotSize = slot.toWord := by
    rw [← UInt64.toNat_inj, h.toNat_readLE (by decide)]
    exact Nat.mod_eq_of_lt slot.toWord.toNat_lt
  rw [atOffset, hword, ofWord_toWord]

/-- Where a slot is read, its bytes stand. -/
theorem holds_atOffset {bytes : ByteArray} {start : Nat} (h : start + slotSize ≤ bytes.size) :
    Bytes.Holds bytes start (atOffset bytes start).toBytes := by
  rw [atOffset, toBytes, toWord_ofWord]
  exact Bytes.holds_readLE (by decide) h

end Slot

-- ════════════════════════════════════════════════════════════════════════
-- Texts
-- ════════════════════════════════════════════════════════════════════════

/-- The slots of a text, without the bytes behind the last whole one. -/
def decodeText (text : ByteArray) : List Slot :=
  (List.range (slotsOf text)).map fun i => Slot.atOffset text (slotSize * i)

theorem length_decodeText (text : ByteArray) : (decodeText text).length = slotsOf text := by
  rw [decodeText, List.length_map, List.length_range]

/-- The slots of a text are those that are read from it. -/
theorem getElem?_decodeText (text : ByteArray) (i : Nat) :
    (decodeText text)[i]? = Slot.read? text i := by
  by_cases hi : i < slotsOf text
  · rw [Slot.read?_eq_some_iff.2 ⟨hi, rfl⟩, decodeText, List.getElem?_map, List.getElem?_range hi,
      Option.map_some]
  · have hend : slotsOf text ≤ i := Nat.le_of_not_lt hi
    rw [Slot.read?_eq_none_iff.2 hend, List.getElem?_eq_none_iff, length_decodeText]
    exact hend

theorem foldl_pushLE_eq_append (slots : List Slot) (text : ByteArray) :
    slots.foldl (fun text slot => Bytes.pushLE text slot.toWord slotSize) text =
      text ++ encodeText slots := by
  induction slots generalizing text with
  | nil => exact ByteArray.append_empty.symm
  | cons slot slots ih =>
    rw [encodeText, List.foldl_cons, List.foldl_cons, ih, ih, Bytes.pushLE_eq_append,
      Bytes.pushLE_eq_append, ByteArray.empty_append, ByteArray.append_assoc]

/-- The encoding of a sequence begins with the bytes of its first slot. -/
theorem encodeText_cons (slot : Slot) (slots : List Slot) :
    encodeText (slot :: slots) = slot.toBytes ++ encodeText slots := by
  rw [encodeText, List.foldl_cons, foldl_pushLE_eq_append, Bytes.pushLE_eq_append,
    ByteArray.empty_append]
  rfl

theorem size_encodeText (slots : List Slot) :
    (encodeText slots).size = slotSize * slots.length := by
  induction slots with
  | nil => rfl
  | cons slot slots ih =>
    rw [encodeText_cons, ByteArray.size_append, Slot.size_toBytes, ih, List.length_cons,
      Nat.mul_succ, Nat.add_comm]

/-- A row of slots stands where each of its slots stands at its place. -/
theorem holds_encodeText_iff {bytes : ByteArray} {offset : Nat} {slots : List Slot}
    (hoffset : offset ≤ bytes.size) :
    Bytes.Holds bytes offset (encodeText slots) ↔
      ∀ i (h : i < slots.length), Bytes.Holds bytes (offset + slotSize * i) slots[i].toBytes := by
  induction slots generalizing offset with
  | nil =>
    refine ⟨fun _ i hi => absurd hi (Nat.not_lt_zero i), fun _ => ⟨hoffset, fun i hi => ?_⟩⟩
    exact absurd hi (Nat.not_lt_zero i)
  | cons slot slots ih =>
    rw [encodeText_cons, Bytes.holds_append_iff, Slot.size_toBytes]
    constructor
    · rintro ⟨hfirst, hrest⟩ i hi
      have hinside := hrest.inside
      cases i with
      | zero => exact hfirst
      | succ i =>
        rw [Nat.mul_succ, Nat.add_comm (slotSize * i), ← Nat.add_assoc]
        exact (ih (by omega)).1 hrest i (Nat.lt_of_succ_lt_succ hi)
    · intro hall
      have hfirst : Bytes.Holds bytes offset slot.toBytes := hall 0 (Nat.succ_pos _)
      have hinside := hfirst.inside
      rw [Slot.size_toBytes] at hinside
      refine ⟨hfirst, (ih hinside).2 fun i hi => ?_⟩
      have hlater := hall (i + 1) (Nat.succ_lt_succ hi)
      rwa [Nat.mul_succ, Nat.add_comm (slotSize * i), ← Nat.add_assoc] at hlater

/-- Slots are read at their indices, whatever stands behind them, and no slot is read from what
stands behind them if that is less than a slot. -/
theorem read?_encodeText_append (slots : List Slot) {rest : ByteArray} (hrest : rest.size < slotSize)
    (i : Nat) : Slot.read? (encodeText slots ++ rest) i = slots[i]? := by
  have hsize : (encodeText slots ++ rest).size = slotSize * slots.length + rest.size := by
    rw [ByteArray.size_append, size_encodeText]
  have hcount : slotsOf (encodeText slots ++ rest) = slots.length := by
    rw [slotsOf, hsize, Nat.mul_add_div (by decide), Nat.div_eq_of_lt hrest, Nat.add_zero]
  by_cases hi : i < slots.length
  · have hrow : Bytes.Holds (encodeText slots ++ rest) 0 (encodeText slots) :=
      (Bytes.holds_self _).append rest
    have hslot := (holds_encodeText_iff (Nat.zero_le _)).1 hrow i hi
    rw [Nat.zero_add] at hslot
    rw [List.getElem?_eq_getElem hi, Slot.read?_eq_some_iff, hcount]
    exact ⟨hi, Slot.atOffset_of_holds hslot⟩
  · have hend : slots.length ≤ i := Nat.le_of_not_lt hi
    rw [List.getElem?_eq_none hend, Slot.read?_eq_none_iff, hcount]
    exact hend

/-- A text of whole slots is the encoding of its slots. -/
theorem encodeText_decodeText {text : ByteArray} (h : text.size % slotSize = 0) :
    encodeText (decodeText text) = text := by
  have hsize : (encodeText (decodeText text)).size = text.size := by
    rw [size_encodeText, length_decodeText, slotsOf, Nat.mul_div_cancel' (Nat.dvd_of_mod_eq_zero h)]
  have hrow : Bytes.Holds text 0 (encodeText (decodeText text)) := by
    refine (holds_encodeText_iff (Nat.zero_le _)).2 fun i hi => ?_
    have hplace : i < slotsOf text := by rwa [length_decodeText] at hi
    have hslot : (decodeText text)[i] = Slot.atOffset text (slotSize * i) := by
      simp only [decodeText, List.getElem_map, List.getElem_range]
    rw [hslot, Nat.zero_add]
    refine Slot.holds_atOffset ?_
    simp only [slotsOf, slotSize] at hplace ⊢
    omega
  refine Bytes.ext_byteAt hsize fun i hi => ?_
  rw [← hrow.byteAt i hi, Nat.zero_add]

-- ════════════════════════════════════════════════════════════════════════
-- The codec
-- ════════════════════════════════════════════════════════════════════════

/-- Slots, words and texts determine each other. -/
structure SlotCodec : Prop where
  /-- The encoding of a sequence is the bytes of its slots, one after the other. -/
  encode_nil : encodeText [] = ByteArray.empty
  encode_cons : ∀ slot slots, encodeText (slot :: slots) = slot.toBytes ++ encodeText slots
  /-- Each slot is read at its index and nothing is read at any other index, however large. -/
  read_encode : ∀ (slots : List Slot) (rest : ByteArray), rest.size < slotSize →
    ∀ i, Slot.read? (encodeText slots ++ rest) i = slots[i]?
  read_decode : ∀ text i, (decodeText text)[i]? = Slot.read? text i
  encode_decode : ∀ text, text.size % slotSize = 0 → encodeText (decodeText text) = text
  /-- Every slot is made of its fields. -/
  new_fields : ∀ slot : Slot,
    .new slot.opcode (UInt8.ofNat slot.dst) (UInt8.ofNat slot.src) slot.off slot.imm = slot
  /-- The word of a slot is its fields in a row. -/
  word : ∀ slot : Slot,
    slot.toWord.toNat = slot.opcode.toNat + 2 ^ 8 * slot.dst + 2 ^ 12 * slot.src +
      2 ^ 16 * slot.off.toUInt16.toNat + 2 ^ 32 * slot.uimm.toNat
  /-- Every word is that of a slot, and every slot that of a word. -/
  toWord_ofWord : ∀ word, (Slot.ofWord word).toWord = word
  ofWord_toWord : ∀ slot : Slot, Slot.ofWord slot.toWord = slot
  /-- The fields that a slot is made of, found again in its word. -/
  fields_new : ∀ opcode dst src off imm,
    let slot := Slot.ofWord (Slot.new opcode dst src off imm).toWord
    slot.opcode = opcode ∧ slot.dst.val = dst.toNat % 16 ∧ slot.src.val = src.toNat % 16 ∧
      slot.off = off ∧ slot.imm = imm
  /-- A new immediate takes the place of the old one in the word, and leaves the other bits. -/
  fields_withImm : ∀ (slot : Slot) imm,
    let changed := Slot.ofWord (slot.withImm imm).toWord
    changed.opcode = slot.opcode ∧ changed.dst = slot.dst ∧ changed.src = slot.src ∧
      changed.off = slot.off ∧ changed.uimm = imm ∧ changed.imm = imm.toInt32
  word_withImm : ∀ (slot : Slot) imm,
    (slot.withImm imm).toWord.toNat = slot.toWord.toNat % 2 ^ 32 + 2 ^ 32 * imm.toNat

/-- No field is lost between a slot, its word and a text. -/
theorem slotCodec : SlotCodec where
  encode_nil := rfl
  encode_cons := encodeText_cons
  read_encode slots _ := read?_encodeText_append slots
  read_decode := getElem?_decodeText
  encode_decode _ := encodeText_decodeText
  new_fields := Slot.new_fields
  word := Slot.toNat_toWord
  toWord_ofWord := Slot.toWord_ofWord
  ofWord_toWord := Slot.ofWord_toWord
  fields_new opcode dst src off imm := by
    rw [Slot.ofWord_toWord]
    exact ⟨rfl, rfl, rfl, rfl, rfl⟩
  fields_withImm slot imm := by
    rw [Slot.ofWord_toWord]
    exact ⟨rfl, rfl, rfl, rfl, slot.uimm_withImm imm, rfl⟩
  word_withImm := Slot.toNat_toWord_withImm

end SbfMachine
