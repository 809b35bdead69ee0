import SbfMachine.Isa.Slot
import SbfMachine.Proofs.Bytes.Parts

/-!
# Fields of slots

The low half of a slot holds its opcode, its registers and its offset, and the high half holds its
immediate. So writing four bytes into the high half replaces the immediate and nothing else. A
64-bit constant is made of the immediates of two slots.

## Main statements

- `Slot.toNat_wideImmediate`, `Slot.wideImmediate_injective` — the two halves of a constant
- `Slot.atOffset_eq` — the two halves of a slot
- `Slot.atOffset_writeLE_immediate` — writing an immediate
-/

namespace SbfMachine

namespace Bytes

/-- A number is its lower bytes and its higher bytes. -/
theorem readLE_eight (bytes : ByteArray) (start : Nat) :
    readLE bytes start 8 = readLE bytes start 4 + 0x100000000 * readLE bytes (start + 4) 4 := by
  simp only [readLE, Nat.add_assoc, Nat.reduceAdd]
  grind

end Bytes

namespace Slot

theorem withImm_withImm (slot : Slot) (a b : UInt32) :
    (slot.withImm a).withImm b = slot.withImm b := rfl

@[simp]
theorem opcode_withImm (slot : Slot) (imm : UInt32) : (slot.withImm imm).opcode = slot.opcode :=
  rfl

theorem uimm_withImm (slot : Slot) (imm : UInt32) : (slot.withImm imm).uimm = imm := by
  rw [withImm, uimm, UInt32.toUInt32_toInt32]

theorem displacement_congr {slot other : Slot} (h : slot.off = other.off) :
    slot.displacement = other.displacement :=
  congrArg (fun off : Int16 => off.toInt64.toUInt64) h

theorem immediate_congr {slot other : Slot} (h : slot.imm = other.imm) :
    slot.immediate = other.immediate :=
  congrArg (fun imm : Int32 => imm.toInt64.toUInt64) h

theorem uimm_congr {slot other : Slot} (h : slot.imm = other.imm) : slot.uimm = other.uimm :=
  congrArg Int32.toUInt32 h

theorem aluImmediate_congr {slot other : Slot} (h : slot.imm = other.imm) (width : AluWidth)
    (op : AluOp) : slot.aluImmediate width op = other.aluImmediate width op := by
  unfold aluImmediate
  rw [uimm_congr h, immediate_congr h]

theorem storeImmediate_congr {slot other : Slot} (h : slot.imm = other.imm) (width : Width) :
    slot.storeImmediate width = other.storeImmediate width := by
  unfold storeImmediate
  rw [uimm_congr h, immediate_congr h]

theorem toNat_wideImmediate (low high : UInt32) :
    (wideImmediate low high).toNat = low.toNat + 2 ^ 32 * high.toNat := by
  have hlow := low.toNat_lt
  have hhigh := high.toNat_lt
  rw [wideImmediate, UInt64.toNat_add, UInt64.toNat_mul, UInt32.toNat_toUInt64,
    UInt32.toNat_toUInt64]
  simp only [UInt64.reduceToNat]
  omega

theorem wideImmediate_injective {low high low' high' : UInt32}
    (h : wideImmediate low high = wideImmediate low' high') : low = low' ∧ high = high' := by
  have hlow := low.toNat_lt
  have hlow' := low'.toNat_lt
  have hsum := congrArg UInt64.toNat h
  rw [toNat_wideImmediate, toNat_wideImmediate] at hsum
  exact ⟨UInt32.toNat_inj.1 (by omega), UInt32.toNat_inj.1 (by omega)⟩

/-- Only the immediate depends on the high half of a word. -/
theorem ofWord_eq {low high : UInt64} (hlow : low.toNat < 2 ^ 32) (hhigh : high.toNat < 2 ^ 32) :
    ofWord (low + 0x100000000 * high) = (ofWord low).withImm high.toUInt32 := by
  have hword : (low + 0x100000000 * high).toNat = low.toNat + 4294967296 * high.toNat := by
    rw [UInt64.toNat_add, UInt64.toNat_mul]
    simp only [UInt64.reduceToNat]
    omega
  have hopcode : (low + 0x100000000 * high).toUInt8 = low.toUInt8 := by
    rw [← UInt8.toNat_inj, UInt64.toNat_toUInt8, UInt64.toNat_toUInt8, hword]
    omega
  have hoff : ((low + 0x100000000 * high) / 0x10000).toUInt16 = (low / 0x10000).toUInt16 := by
    rw [← UInt16.toNat_inj, UInt64.toNat_toUInt16, UInt64.toNat_toUInt16, UInt64.toNat_div,
      UInt64.toNat_div, hword]
    simp only [UInt64.reduceToNat]
    omega
  have himm : (low + 0x100000000 * high) / 0x100000000 = high := by
    rw [← UInt64.toNat_inj, UInt64.toNat_div, hword]
    simp only [UInt64.reduceToNat]
    omega
  have hregister (scale : UInt64) (hscale : scale.toNat = 0x100 ∨ scale.toNat = 0x1000) :
      Fin.ofNat 16 ((low + 0x100000000 * high) / scale).toNat =
        Fin.ofNat 16 (low / scale).toNat := by
    rw [Fin.ext_iff, Fin.val_ofNat, Fin.val_ofNat, UInt64.toNat_div, UInt64.toNat_div, hword]
    rcases hscale with hscale | hscale <;> rw [hscale] <;> omega
  rw [ofWord, ofWord, withImm, hopcode, hoff, himm, hregister 0x100 (.inl rfl),
    hregister 0x1000 (.inr rfl)]

/-- The two halves of a slot. -/
theorem atOffset_eq (bytes : ByteArray) (start : Nat) :
    atOffset bytes start =
      (ofWord (Bytes.readLE bytes start 4)).withImm
        (Bytes.readLE bytes (start + 4) 4).toUInt32 := by
  have hlow := (Bytes.toNat_readLE bytes start (show 4 ≤ 8 by decide)).2
  have hhigh := (Bytes.toNat_readLE bytes (start + 4) (show 4 ≤ 8 by decide)).2
  rw [atOffset, slotSize, Bytes.readLE_eight, ofWord_eq hlow hhigh]

/-- Slots with the same low half differ in the immediate only. -/
theorem atOffset_of_readLE_eq {bytes other : ByteArray} {start place : Nat}
    (h : Bytes.readLE bytes start 4 = Bytes.readLE other place 4) :
    atOffset bytes start =
      (atOffset other place).withImm (Bytes.readLE bytes (start + 4) 4).toUInt32 := by
  rw [atOffset_eq bytes, h, atOffset_eq other, withImm_withImm]

theorem uimm_atOffset (bytes : ByteArray) (start : Nat) :
    (atOffset bytes start).uimm = (Bytes.readLE bytes (start + 4) 4).toUInt32 := by
  rw [atOffset_eq, uimm_withImm]

/-- Four bytes written into the high half of a slot are its new immediate. -/
theorem atOffset_writeLE_immediate {bytes : ByteArray} {start : Nat} (imm : UInt32)
    (hinside : start + 8 ≤ bytes.size) :
    atOffset (Bytes.writeLE bytes (start + 4) imm.toUInt64 4) start =
      (atOffset bytes start).withImm imm := by
  have hlow : Bytes.readLE (Bytes.writeLE bytes (start + 4) imm.toUInt64 4) start 4 =
      Bytes.readLE bytes start 4 :=
    (Bytes.agreeExcept_writeLE bytes (start + 4) imm.toUInt64 4).readLE_eq fun i hi hwindow => by
      obtain ⟨_, hlt⟩ := hi
      obtain ⟨hge, _⟩ := hwindow
      omega
  have hhigh : (Bytes.readLE (Bytes.writeLE bytes (start + 4) imm.toUInt64 4) (start + 4)
      4).toUInt32 = imm := by
    have hheld := Bytes.holds_writeLE imm.toUInt64 (show start + 4 + 4 ≤ bytes.size by omega)
    have hnumber := hheld.toNat_readLE (by decide)
    have hlt := imm.toNat_lt
    rw [← UInt32.toNat_inj, UInt64.toNat_toUInt32, hnumber, UInt32.toNat_toUInt64]
    omega
  rw [atOffset_eq, hlow, hhigh, atOffset_eq bytes, withImm_withImm]

end Slot

end SbfMachine
