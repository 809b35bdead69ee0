import SbfMachine.Memory

/-!
# Where bytes are stored

An access is located as a whole, but the place of an access is the places of its bytes: it is
granted iff each of its bytes can be read, and writing is not forbidden. Different bytes of the
address space are stored in different places.

## Main definitions

- `OneRegion` — accesses that do not run into the next region
- `Memory.cell?` — where the byte at an address is stored

## Main statements

- `Memory.locate_eq_ok_iff` — the place of an access in terms of the places of its bytes
- `Memory.cell?_injective` — no two addresses share a cell
-/

namespace SbfMachine

/-- The `size` bytes from `address` on have the same high half of the address. -/
def OneRegion (address : UInt64) (size : Nat) : Prop :=
  address.toNat % 0x100000000 + size ≤ 0x100000000

instance (address : UInt64) (size : Nat) : Decidable (OneRegion address size) :=
  inferInstanceAs (Decidable (_ ≤ _))

section Addresses

variable {address : UInt64} {size i : Nat}

theorem OneRegion.toNat_add (h : OneRegion address size) (hi : i < size) :
    (address + UInt64.ofNat i).toNat = address.toNat + i := by
  have hlt := address.toNat_lt
  rw [OneRegion] at h
  rw [UInt64.toNat_add, UInt64.toNat_ofNat']
  omega

theorem OneRegion.offset_add (h : OneRegion address size) (hi : i < size) :
    (address + UInt64.ofNat i).toNat % 0x100000000 = address.toNat % 0x100000000 + i := by
  rw [h.toNat_add hi]
  rw [OneRegion] at h
  omega

namespace Region

theorem ofAddress?_eq_some_iff {region : Region} :
    ofAddress? address = some region ↔
      address.toNat / 0x100000000 * 0x100000000 = region.base.toNat := by
  have hprogramBase : programBase.toNat = 0x100000000 := rfl
  have hstackBase : stackBase.toNat = 0x200000000 := rfl
  have hheapBase : heapBase.toNat = 0x300000000 := rfl
  have hinputBase : inputBase.toNat = 0x400000000 := rfl
  unfold ofAddress?
  split
  · next hhigh => cases region <;> simp [base, *]
  · next hhigh => cases region <;> simp [base, *]
  · next hhigh => cases region <;> simp [base, *]
  · next hhigh => cases region <;> simp [base, *]
  · next hprogram hstack hheap hinput =>
    rw [imp_false] at hprogram hstack hheap hinput
    constructor
    · intro h
      cases h
    · intro h
      cases region <;> dsimp only [base] at h <;> omega

/-- The offset of an address in its region is the low half of the address. -/
theorem toNat_sub_base {region : Region} (h : ofAddress? address = some region) :
    (address - region.base).toNat = address.toNat % 0x100000000 := by
  rw [ofAddress?_eq_some_iff] at h
  rw [UInt64.toNat_sub_of_le]
  · omega
  · rw [UInt64.le_iff_toNat_le]
    omega

theorem ofAddress?_add (h : OneRegion address size) (hi : i < size) :
    ofAddress? (address + UInt64.ofNat i) = ofAddress? address := by
  have hsame : (address.toNat + i) / 0x100000000 = address.toNat / 0x100000000 := by
    rw [OneRegion] at h
    omega
  rw [ofAddress?, ofAddress?, h.toNat_add hi, hsame]

end Region

end Addresses

namespace Memory

-- ════════════════════════════════════════════════════════════════════════
-- Places inside a region
-- ════════════════════════════════════════════════════════════════════════

section Offsets

variable {region : Region} {offset size start : Nat} {write : Bool}

theorem locateInStack_eq_ok_iff :
    locateInStack offset size = .ok start ↔
      offset / frameSize % 2 = 0 ∧ offset / frameSize / 2 < maxCallDepth ∧
        offset % frameSize + size ≤ frameSize ∧
          start = offset / frameSize / 2 * frameSize + offset % frameSize := by
  simp only [locateInStack]
  split
  · simp
    omega
  · split
    · simp
      omega
    · split
      · simp
        omega
      · simp
        omega

/-- Inside the stack, an access is granted iff its bytes are, because the slot behind a frame is a
gap. -/
theorem locateInStack_iff_bytes (hsize : 0 < size) :
    locateInStack offset size = .ok start ↔
      ∀ i < size, locateInStack (offset + i) 1 = .ok (start + i) := by
  simp only [locateInStack_eq_ok_iff, frameSize]
  constructor
  · intro h i hi
    omega
  · intro h
    have hfirst := h 0 hsize
    refine ⟨hfirst.1, hfirst.2.1, Nat.le_of_not_lt fun hcross => ?_, hfirst.2.2.2⟩
    -- The access runs into the slot behind its frame.
    have hgap := h (0x1000 - offset % 0x1000) (by omega)
    omega

/-- An access is granted iff its bytes can be read and, if it is a write, the region can be
written. -/
theorem locateIn_iff_bytes (hsize : 0 < size) :
    locateIn region offset size write = .ok start ↔
      (write = true → region ≠ .program) ∧
        ∀ i < size, locateIn region (offset + i) 1 false = .ok (start + i) := by
  cases region with
  | stack => simp [locateIn, locateInStack_iff_bytes hsize]
  | program =>
    cases write with
    | true => simp [locateIn]
    | false =>
      simp only [locateIn, Bool.false_eq_true, if_false, Except.ok.injEq, Nat.add_right_cancel_iff]
      exact ⟨fun h => ⟨False.elim, fun _ _ => h⟩, fun h => h.2 0 hsize⟩
  | heap | input =>
    simp only [locateIn, Except.ok.injEq, Nat.add_right_cancel_iff]
    refine ⟨fun h => ⟨fun _ => ?_, fun _ _ => h⟩, fun h => h.2 0 hsize⟩
    decide

/-- Different offsets are different places. -/
theorem locateIn_injective {other : Nat} (h : locateIn region offset 1 false = .ok start)
    (hother : locateIn region other 1 false = .ok start) : offset = other := by
  cases region with
  | stack =>
    rw [locateIn, locateInStack_eq_ok_iff, frameSize] at h hother
    omega
  | program | heap | input =>
    obtain rfl := Except.ok.inj h
    exact (Except.ok.inj hother).symm

/-- Neighbours are stored next to one another. -/
theorem locateIn_succ {next : Nat} (h : locateIn region offset 1 false = .ok start)
    (hnext : locateIn region (offset + 1) 1 false = .ok next) : next = start + 1 := by
  cases region with
  | stack =>
    rw [locateIn, locateInStack_eq_ok_iff, frameSize] at h hnext
    omega
  | program | heap | input =>
    obtain rfl := Except.ok.inj h
    exact (Except.ok.inj hnext).symm

end Offsets

-- ════════════════════════════════════════════════════════════════════════
-- Cells
-- ════════════════════════════════════════════════════════════════════════

/-- Where the byte at an address is stored, if it can be read: the region and the place in its byte
string. -/
def cell? (memory : Memory) (address : UInt64) : Option (Region × Nat) :=
  match memory.locate address 1 false with
  | .ok window => some (window.region, window.start)
  | .error _ => none

section Cells

variable {memory : Memory} {address : UInt64} {size : Nat} {write : Bool}

theorem window_eq_ok_iff {window : Window} :
    memory.window address size write = .ok window ↔
      memory.locate address size write = .ok window := by
  unfold Memory.window
  cases memory.locate address size write <;> simp

theorem locate_eq_ok_iff {window : Window} :
    memory.locate address size write = .ok window ↔
      Region.ofAddress? address = some window.region ∧
        locateIn window.region (address.toNat % 0x100000000) size write = .ok window.start ∧
          window.start + size ≤ (memory.bytes window.region).size ∧ window.size = size := by
  constructor
  · intro h
    unfold locate at h
    split at h
    · cases h
    · next region hregion =>
      rw [Region.toNat_sub_base hregion] at h
      split at h
      · cases h
      · next start hstart =>
        split at h
        · next hfits =>
          obtain rfl := Except.ok.inj h
          exact ⟨hregion, hstart, hfits, rfl⟩
        · cases h
  · rintro ⟨hregion, hstart, hfits, rfl⟩
    simp only [locate, hregion, Region.toNat_sub_base hregion, hstart, if_pos hfits]

theorem cell?_eq_some_iff {region : Region} {start : Nat} :
    memory.cell? address = some (region, start) ↔
      Region.ofAddress? address = some region ∧
        locateIn region (address.toNat % 0x100000000) 1 false = .ok start ∧
          start < (memory.bytes region).size := by
  constructor
  · intro h
    unfold cell? at h
    split at h
    · next window hwindow =>
      obtain ⟨hregion, hstart, hfits, _⟩ := locate_eq_ok_iff.1 hwindow
      obtain ⟨rfl, rfl⟩ := Prod.mk.inj (Option.some.inj h)
      exact ⟨hregion, hstart, hfits⟩
    · cases h
  · rintro ⟨hregion, hstart, hfits⟩
    have hwindow : memory.locate address 1 false = .ok ⟨region, start, 1⟩ :=
      locate_eq_ok_iff.2 ⟨hregion, hstart, hfits, rfl⟩
    rw [cell?, hwindow]

/-- No two addresses share a cell. -/
theorem cell?_injective {other : UInt64} {cell : Region × Nat}
    (h : memory.cell? address = some cell) (hother : memory.cell? other = some cell) :
    address = other := by
  obtain ⟨region, start⟩ := cell
  obtain ⟨hregion, hstart, _⟩ := cell?_eq_some_iff.1 h
  obtain ⟨hregion', hstart', _⟩ := cell?_eq_some_iff.1 hother
  rw [Region.ofAddress?_eq_some_iff] at hregion hregion'
  have hoffset := locateIn_injective hstart hstart'
  rw [← UInt64.toNat_inj]
  omega

/-- The cells of an access that stays in its region lie at offsets of one region. -/
theorem cell?_add_eq_some_iff {region : Region} {start i : Nat} (honly : OneRegion address size)
    (hi : i < size) :
    memory.cell? (address + UInt64.ofNat i) = some (region, start) ↔
      Region.ofAddress? address = some region ∧
        locateIn region (address.toNat % 0x100000000 + i) 1 false = .ok start ∧
          start < (memory.bytes region).size := by
  rw [cell?_eq_some_iff, Region.ofAddress?_add honly hi, honly.offset_add hi]

/-- The place of an access is the places of its bytes. -/
theorem locate_iff_cells {window : Window} (honly : OneRegion address size) (hsize : 0 < size) :
    memory.locate address size write = .ok window ↔
      (write = true → window.region ≠ .program) ∧ window.size = size ∧
        ∀ i < size, memory.cell? (address + UInt64.ofNat i) =
          some (window.region, window.start + i) := by
  rw [locate_eq_ok_iff, locateIn_iff_bytes hsize]
  constructor
  · rintro ⟨hregion, ⟨hwrite, hbytes⟩, hfits, hlength⟩
    refine ⟨hwrite, hlength, fun i hi => ?_⟩
    exact (cell?_add_eq_some_iff honly hi).2 ⟨hregion, hbytes i hi, by omega⟩
  · rintro ⟨hwrite, hlength, hcells⟩
    have hcell (i : Nat) (hi : i < size) := (cell?_add_eq_some_iff honly hi).1 (hcells i hi)
    have hlast := hcell (size - 1) (by omega)
    exact ⟨hlast.1, ⟨hwrite, fun i hi => (hcell i hi).2.1⟩, by omega, hlength⟩

/-- An access is granted iff its bytes can be read and, if it is a write, the region can be
written. -/
theorem exists_locate_iff (honly : OneRegion address size) (hsize : 0 < size) :
    (∃ window, memory.locate address size write = .ok window) ↔
      (write = true → Region.ofAddress? address ≠ some .program) ∧
        ∀ i < size, ∃ cell, memory.cell? (address + UInt64.ofNat i) = some cell := by
  constructor
  · rintro ⟨window, hwindow⟩
    obtain ⟨hwrite, _, hcells⟩ := (locate_iff_cells honly hsize).1 hwindow
    refine ⟨fun h hprogram => hwrite h ?_, fun i hi => ⟨_, hcells i hi⟩⟩
    have hregion := (locate_eq_ok_iff.1 hwindow).1
    exact Option.some.inj (hregion.symm.trans hprogram)
  · rintro ⟨hwrite, hcells⟩
    obtain ⟨⟨region, start⟩, hfirst⟩ := hcells 0 hsize
    have hregion := ((cell?_add_eq_some_iff honly hsize).1 hfirst).1
    -- Byte by byte, the cells follow one another.
    have hrow : ∀ i < size, memory.cell? (address + UInt64.ofNat i) = some (region, start + i) := by
      intro i
      induction i with
      | zero =>
        intro _
        exact hfirst
      | succ i ih =>
        intro hi
        have hi' : i < size := Nat.lt_of_succ_lt hi
        obtain ⟨_, hplace, _⟩ := (cell?_add_eq_some_iff honly hi').1 (ih hi')
        obtain ⟨⟨other, next⟩, hnext⟩ := hcells (i + 1) hi
        obtain ⟨hother, hnextPlace, _⟩ := (cell?_add_eq_some_iff honly hi).1 hnext
        obtain rfl : region = other := Option.some.inj (hregion.symm.trans hother)
        rw [hnext, locateIn_succ hplace hnextPlace, Nat.add_assoc]
    refine ⟨⟨region, start, size⟩, (locate_iff_cells honly hsize).2 ⟨?_, rfl, hrow⟩⟩
    rintro h rfl
    exact hwrite h hregion

end Cells

end Memory

end SbfMachine
