import SbfMachine.Proofs.Bytes.Parts
import SbfMachine.Proofs.Isa.Slot
import SbfMachine.Proofs.Link.Relocation

/-!
# Where patches write

Patches change the places that they cover and no others, and what they write there does not depend
on what stood there before. So of several groups of patches that cover different places, each
leaves its own places as if the others were not there.

## Main definitions

- `Covered` — the places that patches write to
- `widePatches` — the patches that store an address in a two-slot instruction

## Main statements

- `agreeExcept_foldl_write`, `agreeExcept_foldl_write_congr` — other places stay as they are, and
  differences at covered places vanish
- `foldl_write_isolated`, `foldl_write_perm` — groups of patches that cover different places
- `toNat_readLE_widePatches` — the halves of an address that is stored in two slots
-/

namespace SbfMachine.Link

open Bytes (AgreeExcept InWindow)

/-- The patches write to the place `i`. -/
def Covered (patches : List Patch) (i : Nat) : Prop :=
  ∃ patch ∈ patches, InWindow patch.offset patch.width i

theorem covered_cons_iff {patch : Patch} {patches : List Patch} {i : Nat} :
    Covered (patch :: patches) i ↔
      InWindow patch.offset patch.width i ∨ Covered patches i := by
  simp only [Covered, List.mem_cons, exists_eq_or_imp]

theorem not_covered_nil {i : Nat} : ¬Covered [] i :=
  fun ⟨_, hmem, _⟩ => List.not_mem_nil hmem

-- ════════════════════════════════════════════════════════════════════════
-- One group
-- ════════════════════════════════════════════════════════════════════════

/-- Patches change covered places only. -/
theorem agreeExcept_foldl_write (patches : List Patch) (image : ByteArray) :
    AgreeExcept (Covered patches) (patches.foldl Patch.write image) image := by
  induction patches generalizing image with
  | nil => exact .refl _ image
  | cons patch patches ih =>
    have hfirst := Bytes.agreeExcept_writeLE image patch.offset patch.value patch.width
    have hrest := ih (patch.write image)
    refine (hrest.mono fun i hi => ?_).trans (hfirst.mono fun i hi => ?_)
    · exact covered_cons_iff.2 (.inr hi)
    · exact covered_cons_iff.2 (.inl hi)

/-- Two images with the same patches do not differ at covered places. -/
theorem agreeExcept_foldl_write_congr {places : Nat → Prop} {a b : ByteArray}
    (h : AgreeExcept places a b) (patches : List Patch) :
    AgreeExcept (fun i => places i ∧ ¬Covered patches i) (patches.foldl Patch.write a)
      (patches.foldl Patch.write b) := by
  induction patches generalizing places a b with
  | nil => exact h.mono fun i hi => ⟨hi, not_covered_nil⟩
  | cons patch patches ih =>
    have hfirst : AgreeExcept (fun i => places i ∧ ¬InWindow patch.offset patch.width i)
        (patch.write a) (patch.write b) := h.writeLE patch.value
    refine (ih hfirst).mono fun i hi => ⟨hi.1.1, fun hcovered => ?_⟩
    rcases covered_cons_iff.1 hcovered with hwindow | hlater
    · exact hi.1.2 hwindow
    · exact hi.2 hlater

-- ════════════════════════════════════════════════════════════════════════
-- Several groups
-- ════════════════════════════════════════════════════════════════════════

section Groups

variable {α : Type} {patches : α → List Patch} {covers : α → Nat → Prop}

theorem covered_flatMap {items : List α} {i : Nat}
    (hcovers : ∀ item i, Covered (patches item) i → covers item i)
    (h : Covered (items.flatMap patches) i) : ∃ item ∈ items, covers item i := by
  obtain ⟨patch, hmem, hwindow⟩ := h
  obtain ⟨item, hitem, hpatch⟩ := List.mem_flatMap.1 hmem
  exact ⟨item, hitem, hcovers item i ⟨patch, hpatch, hwindow⟩⟩

/-- At the places of one group, the others make no difference. -/
theorem foldl_write_isolated {items : List α} {item : α}
    (hcovers : ∀ item i, Covered (patches item) i → covers item i)
    (hapart : items.Pairwise fun a b => ∀ i, covers a i → ¬covers b i) (hitem : item ∈ items)
    (image : ByteArray) :
    AgreeExcept (fun i => ¬covers item i) ((items.flatMap patches).foldl Patch.write image)
      ((patches item).foldl Patch.write image) := by
  induction items generalizing image with
  | nil => cases hitem
  | cons first rest ih =>
    obtain ⟨hfirst, hrest⟩ := List.pairwise_cons.1 hapart
    rw [List.flatMap_cons, List.foldl_append]
    rcases List.mem_cons.1 hitem with rfl | hlater
    · refine (agreeExcept_foldl_write _ _).mono fun i hi hcover => ?_
      obtain ⟨other, hother, hcovered⟩ := covered_flatMap hcovers hi
      exact hfirst other hother i hcover hcovered
    · refine (ih hrest hlater _).trans ?_
      have hbefore : AgreeExcept (fun i => ¬covers item i)
          ((patches first).foldl Patch.write image) image :=
        (agreeExcept_foldl_write _ _).mono fun i hi => hfirst item hlater i (hcovers first i hi)
      exact (agreeExcept_foldl_write_congr hbefore _).mono fun i hi => hi.1

/-- Groups of patches that cover different places can be written in any order. -/
theorem foldl_write_perm {items permuted : List α}
    (hcovers : ∀ item i, Covered (patches item) i → covers item i)
    (hapart : items.Pairwise fun a b => ∀ i, covers a i → ¬covers b i)
    (hperm : permuted.Perm items) (image : ByteArray) :
    (permuted.flatMap patches).foldl Patch.write image =
      (items.flatMap patches).foldl Patch.write image := by
  have hapart' : permuted.Pairwise fun a b => ∀ i, covers a i → ¬covers b i :=
    (hperm.pairwise_iff fun h i hsecond hfirst => h i hfirst hsecond).2 hapart
  apply Bytes.ext_byteAt
  · rw [size_foldl_write, size_foldl_write]
  · intro i _
    by_cases hplace : ∃ item ∈ items, covers item i
    · obtain ⟨item, hitem, hcover⟩ := hplace
      have hfirst := foldl_write_isolated hcovers hapart' (hperm.mem_iff.2 hitem) image
      have hsecond := foldl_write_isolated hcovers hapart hitem image
      rw [hfirst.byteAt i (not_not_intro hcover), hsecond.byteAt i (not_not_intro hcover)]
    · have hnone : ¬Covered (items.flatMap patches) i := fun h => hplace (covered_flatMap hcovers h)
      have hnone' : ¬Covered (permuted.flatMap patches) i := fun h => by
        obtain ⟨item, hitem, hcover⟩ := covered_flatMap hcovers h
        exact hplace ⟨item, hperm.mem_iff.1 hitem, hcover⟩
      rw [(agreeExcept_foldl_write _ image).byteAt i hnone',
        (agreeExcept_foldl_write _ image).byteAt i hnone]

end Groups

-- ════════════════════════════════════════════════════════════════════════
-- Addresses in two slots
-- ════════════════════════════════════════════════════════════════════════

/-- The patches that store an address in the immediates of the two slots from `place` on. -/
def widePatches (place : Nat) (address : UInt64) : List Patch :=
  [{ offset := place + immediateOffset, width := immediateSize, value := address },
   { offset := place + secondImmediateOffset, width := immediateSize
     value := address / 0x100000000 }]

theorem wideImmediatePatches_eq {image : ByteArray} {place : Nat}
    (h : place + 2 * slotSize ≤ image.size) (address : UInt64) :
    wideImmediatePatches image place address = .ok (widePatches place address) := by
  rw [wideImmediatePatches, if_pos h, widePatches]

theorem covered_widePatches_iff {place i : Nat} {address : UInt64} :
    Covered (widePatches place address) i ↔
      InWindow (place + immediateOffset) immediateSize i ∨
        InWindow (place + secondImmediateOffset) immediateSize i := by
  simp only [widePatches, covered_cons_iff, not_covered_nil, or_false]

/-- The halves of an address are read back. -/
theorem toNat_readLE_widePatches {image : ByteArray} {place : Nat} (address : UInt64)
    (h : place + 2 * slotSize ≤ image.size) :
    (Bytes.readLE ((widePatches place address).foldl Patch.write image)
        (place + immediateOffset) immediateSize).toNat = address.toNat % 2 ^ 32 ∧
      (Bytes.readLE ((widePatches place address).foldl Patch.write image)
        (place + secondImmediateOffset) immediateSize).toNat = address.toNat / 2 ^ 32 := by
  simp only [slotSize, immediateOffset, secondImmediateOffset, immediateSize] at h ⊢
  simp only [widePatches, List.foldl_cons, List.foldl_nil, Patch.write, immediateOffset,
    secondImmediateOffset, immediateSize, slotSize]
  constructor
  · have hlow := Bytes.holds_writeLE address (show place + 4 + 4 ≤ image.size by omega)
    rw [(Bytes.agreeExcept_writeLE _ _ _ _).readLE_eq fun i hi hwindow => ?_,
      hlow.toNat_readLE (by decide)]
    · rfl
    · obtain ⟨_, hlt⟩ := hi
      obtain ⟨hge, _⟩ := hwindow
      omega
  · have hhigh := Bytes.holds_writeLE (address / 0x100000000)
      (show place + (8 + 4) + 4 ≤ (Bytes.writeLE image (place + 4) address 4).size by
        rw [Bytes.size_writeLE]
        omega)
    have hlt := address.toNat_lt
    rw [hhigh.toNat_readLE (by decide), UInt64.toNat_div]
    simp only [UInt64.reduceToNat]
    omega

/-- The constant of two slots whose halves are those of a number. -/
theorem wideImmediate_eq {low high : UInt32} {value : UInt64}
    (hlow : low.toNat = value.toNat % 2 ^ 32) (hhigh : high.toNat = value.toNat / 2 ^ 32) :
    Slot.wideImmediate low high = value := by
  rw [← UInt64.toNat_inj, Slot.toNat_wideImmediate, hlow, hhigh]
  omega

-- ════════════════════════════════════════════════════════════════════════
-- Addresses of the program region
-- ════════════════════════════════════════════════════════════════════════

/-- An address that counts from the start of the image. -/
theorem toProgramAddress_ofNat {n : Nat} (h : n < 2 ^ 32) :
    toProgramAddress (UInt64.ofNat n) = UInt64.ofNat (programBase.toNat + n) := by
  have hbase : programBase.toNat = 2 ^ 32 := by decide
  have hn : (UInt64.ofNat n).toNat = n :=
    UInt64.toNat_ofNat_of_lt' (by simp only [UInt64.size]; omega)
  have hlt : UInt64.ofNat n < programBase := by
    rw [UInt64.lt_iff_toNat_lt, hn, hbase]
    exact h
  rw [toProgramAddress, if_pos hlt, UInt64.ofNat_add, UInt64.ofNat_toNat, UInt64.add_comm]

section Resolving

variable {object : Elf.Object} {image : ByteArray} {relocation : Elf.Relocation} {place : Nat}

/-- The address of a symbol plus the constant of the instruction. -/
theorem resolveAbs64_eq {symbol : Elf.Symbol}
    (hsymbol : object.symbol relocation.symbol = .ok symbol)
    (hinside : relocation.offset.toNat + 2 * slotSize ≤ image.size)
    (hsmall : symbol.value.toNat +
      (Bytes.readLE image (relocation.offset.toNat + immediateOffset) immediateSize).toNat <
        2 ^ 32) :
    resolveAbs64 object image relocation =
      .ok (widePatches relocation.offset.toNat
        (UInt64.ofNat (programBase.toNat + (symbol.value.toNat +
          (Bytes.readLE image (relocation.offset.toNat + immediateOffset)
            immediateSize).toNat)))) := by
  have hfield : relocation.offset.toNat + immediateOffset + immediateSize ≤ image.size := by
    simp only [slotSize, immediateOffset, immediateSize] at hinside ⊢
    omega
  have hsum : addCutOff symbol.value
      (Bytes.readLE image (relocation.offset.toNat + immediateOffset) immediateSize) =
        UInt64.ofNat (symbol.value.toNat +
          (Bytes.readLE image (relocation.offset.toNat + immediateOffset)
            immediateSize).toNat) := by
    have hword : Elf.maxWord = 18446744073709551615 := rfl
    rw [addCutOff, Nat.min_eq_left (by omega)]
  rw [resolveAbs64, hsymbol, fieldAt, if_pos hfield]
  simp only [bind, Except.bind, hsum, toProgramAddress_ofNat hsmall,
    wideImmediatePatches_eq hinside]

/-- The address that an instruction holds. -/
theorem resolveRelativeInText_eq {n : Nat} (hinside : place + 2 * slotSize ≤ image.size)
    (hpos : 0 < n) (hsmall : n < 2 ^ 32)
    (hlow : (Bytes.readLE image (place + immediateOffset) immediateSize).toNat = n)
    (hhigh : (Bytes.readLE image (place + secondImmediateOffset) immediateSize).toNat = 0) :
    resolveRelativeInText image place =
      .ok (widePatches place (UInt64.ofNat (programBase.toNat + n))) := by
  have hfields : place + immediateOffset + immediateSize ≤ image.size ∧
      place + secondImmediateOffset + immediateSize ≤ image.size := by
    simp only [slotSize, immediateOffset, secondImmediateOffset, immediateSize] at hinside ⊢
    omega
  have haddress : Bytes.readLE image (place + immediateOffset) immediateSize +
      0x100000000 * Bytes.readLE image (place + secondImmediateOffset) immediateSize =
        UInt64.ofNat n := by
    rw [← UInt64.toNat_inj, UInt64.toNat_add, UInt64.toNat_mul, hlow, hhigh, UInt64.toNat_ofNat']
    rfl
  have hnonzero : UInt64.ofNat n ≠ 0 := by
    rw [← UInt64.toNat_inj.ne, UInt64.toNat_ofNat', Nat.mod_eq_of_lt (by omega)]
    exact Nat.ne_of_gt hpos
  rw [resolveRelativeInText, fieldAt, fieldAt, if_pos hfields.1, if_pos hfields.2]
  simp only [bind, Except.bind, haddress, if_neg hnonzero, toProgramAddress_ofNat hsmall,
    wideImmediatePatches_eq hinside]

/-- The address that data holds, in all of its bytes or in the last four of them. -/
theorem resolveRelativeInData_eq {n : Nat} {sbfV2 : Bool}
    (hinside : place + addressSize ≤ image.size) (hsmall : n < 2 ^ 32)
    (hvalue : if sbfV2 then (Bytes.readLE image place addressSize).toNat = n
      else (Bytes.readLE image (place + immediateOffset) immediateSize).toNat = n) :
    resolveRelativeInData sbfV2 image place =
      .ok [{ offset := place, width := addressSize
             value := UInt64.ofNat (programBase.toNat + n) }] := by
  have hfields : place + 0 + addressSize ≤ image.size ∧
      place + immediateOffset + immediateSize ≤ image.size := by
    simp only [addressSize, immediateOffset, immediateSize] at hinside ⊢
    omega
  have hpatch (value : UInt64) : fieldPatch image place 0 addressSize value =
      .ok [{ offset := place, width := addressSize, value }] := by
    rw [fieldPatch, if_pos hfields.1, Nat.add_zero]
  rw [resolveRelativeInData, fieldAt, fieldAt, if_pos hfields.1, if_pos hfields.2]
  cases sbfV2 with
  | true =>
    have hread : Bytes.readLE image (place + 0) addressSize = UInt64.ofNat n := by
      rw [← UInt64.toNat_inj, UInt64.toNat_ofNat', Nat.mod_eq_of_lt (by omega)]
      exact hvalue
    simp only [if_true, Functor.map, Except.map, bind, Except.bind, hread,
      toProgramAddress_ofNat hsmall, hpatch]
  | false =>
    have hread : Bytes.readLE image (place + immediateOffset) immediateSize + programBase =
        UInt64.ofNat (programBase.toNat + n) := by
      rw [UInt64.ofNat_add, UInt64.ofNat_toNat, UInt64.add_comm, ← hvalue]
      simp only [UInt64.ofNat_toNat]
    simp only [Bool.false_eq_true, if_false, Functor.map, Except.map, bind, Except.bind, hread,
      hpatch]

end Resolving

end SbfMachine.Link
