import SbfMachine.Proofs.Memory.Cells

/-!
# Accesses and regions

A region has as many addresses as the low half of an address has values, but nothing bounds the byte
string behind it, and an access is checked against that byte string alone. So an access stays in the
region that its first address selects as long as no region holds more bytes than it has addresses,
and only that long: with a larger heap, one access reaches the last address of the heap and the
first address of the input.

## Main definitions

- `StaysInRegion` — the addresses of an access do not wrap around and select one region
- `Memory.FitsRegions` — no region holds more bytes than it has addresses

## Main statements

- `Memory.staysInRegion_of_window` — where the bytes fit, granted accesses stay in their region
- `Memory.window_last` — where they do not, an access at the end of a region leaves it
- `Memory.accesses_stayInRegion_iff` — what that comes to in the memory of a fresh machine
-/

namespace SbfMachine

/-- How many addresses a region has. -/
def regionSize : Nat := 0x100000000

/-- The addresses of an access do not wrap around, and all of them select the same region. -/
structure StaysInRegion (address : UInt64) (size : Nat) : Prop where
  no_wrap : address.toNat + size ≤ UInt64.size
  region : ∀ i < size, Region.ofAddress? (address + UInt64.ofNat i) = Region.ofAddress? address

-- ════════════════════════════════════════════════════════════════════════
-- Addresses
-- ════════════════════════════════════════════════════════════════════════

section Addresses

variable {address : UInt64} {size : Nat} {region : Region}

theorem Region.base_add_lt (region : Region) : region.base.toNat + regionSize < UInt64.size := by
  cases region <;> decide

theorem OneRegion.of_staysInRegion (hregion : Region.ofAddress? address = some region)
    (h : StaysInRegion address size) : OneRegion address size := by
  have hbase := Region.ofAddress?_eq_some_iff.1 hregion
  have hbound := region.base_add_lt
  simp only [regionSize, UInt64.size] at hbound
  refine Nat.le_of_not_lt fun hcross => ?_
  -- One of the bytes is at the first address behind the region.
  let i := 0x100000000 - address.toNat % 0x100000000
  have hi : i < size := by omega
  have hbehind : (address + UInt64.ofNat i).toNat = region.base.toNat + 0x100000000 := by
    rw [UInt64.toNat_add, UInt64.toNat_ofNat']
    omega
  have hsame := Region.ofAddress?_eq_some_iff.1 ((h.region i hi).trans hregion)
  omega

/-- For an access that begins in a region, staying there is a matter of the low half of the
address. -/
theorem staysInRegion_iff_oneRegion (hregion : Region.ofAddress? address = some region) :
    StaysInRegion address size ↔ OneRegion address size := by
  refine ⟨OneRegion.of_staysInRegion hregion, fun h => ⟨?_, fun i hi => Region.ofAddress?_add h hi⟩⟩
  have hbase := Region.ofAddress?_eq_some_iff.1 hregion
  have hbound := region.base_add_lt
  rw [OneRegion] at h
  simp only [regionSize] at hbound
  omega

/-- The last address of a region. -/
def Region.last (region : Region) : UInt64 :=
  region.base + 0xffffffff

theorem Region.ofAddress?_last (region : Region) : ofAddress? region.last = some region := by
  cases region <;> decide

theorem not_staysInRegion_last (region : Region) : ¬ StaysInRegion region.last 2 := by
  rw [staysInRegion_iff_oneRegion region.ofAddress?_last, OneRegion]
  cases region <;> decide

end Addresses

namespace Memory

/-- No region holds more bytes than it has addresses. -/
def FitsRegions (memory : Memory) : Prop :=
  ∀ region, (memory.bytes region).size ≤ regionSize

variable {memory : Memory} {address : UInt64} {size : Nat} {write : Bool} {window : Window}

/-- The stack always fits, as the call stack has only so many frames. -/
theorem size_stack_le (memory : Memory) : (memory.bytes .stack).size ≤ regionSize := by
  rw [bytes, memory.size_stack]
  decide

-- ════════════════════════════════════════════════════════════════════════
-- Bytes that fit
-- ════════════════════════════════════════════════════════════════════════

/-- An access is stored where its offset says. In the stack it may be stored further to the front,
but there it cannot leave its frame. -/
theorem offset_le_of_locateIn {region : Region} {offset start : Nat}
    (h : locateIn region offset size write = .ok start) :
    offset = start ∨ offset + size ≤ regionSize := by
  cases region with
  | stack =>
    obtain ⟨_, hframe, hsize, _⟩ := locateInStack_eq_ok_iff.1 h
    right
    simp only [frameSize, maxCallDepth] at hframe hsize
    simp only [regionSize]
    omega
  | program =>
    simp only [locateIn] at h
    split at h
    · cases h
    · exact .inl (Except.ok.inj h)
  | heap | input => exact .inl (Except.ok.inj h)

/-- If the bytes fit, an access that is granted stays in its region. -/
theorem staysInRegion_of_window (hfits : memory.FitsRegions)
    (h : memory.window address size write = .ok window) : StaysInRegion address size := by
  obtain ⟨hregion, hstart, hinside, _⟩ := locate_eq_ok_iff.1 (window_eq_ok_iff.1 h)
  refine (staysInRegion_iff_oneRegion hregion).2 ?_
  rcases offset_le_of_locateIn hstart with hplace | hframe
  · have hbytes := hfits window.region
    rw [OneRegion, hplace]
    exact Nat.le_trans hinside hbytes
  · exact hframe

-- ════════════════════════════════════════════════════════════════════════
-- Bytes that do not fit
-- ════════════════════════════════════════════════════════════════════════

/-- If a region holds more bytes than it has addresses, an access of two bytes at its last address
is granted. -/
theorem window_last {region : Region} (h : regionSize < (memory.bytes region).size) :
    memory.window region.last 2 false = .ok ⟨region, 0xffffffff, 2⟩ := by
  have hoffset : region.last.toNat % 0x100000000 = 0xffffffff := by
    cases region <;> decide
  refine window_eq_ok_iff.2 (locate_eq_ok_iff.2 ⟨region.ofAddress?_last, ?_, ?_, rfl⟩)
  · rw [hoffset]
    cases region with
    | stack => exact absurd memory.size_stack_le (Nat.not_le.2 h)
    | program | heap | input => rfl
  · dsimp only
    rw [regionSize] at h
    omega

/-- If all accesses that are granted stay in their regions, the bytes fit. -/
theorem fitsRegions_of_staysInRegion (h : ∀ address size write window, 1 ≤ size →
      memory.window address size write = .ok window → StaysInRegion address size) :
    memory.FitsRegions := by
  refine fun region => Nat.le_of_not_lt fun hlarge => ?_
  exact not_staysInRegion_last region
    (h region.last 2 false _ (by decide) (window_last hlarge))

-- ════════════════════════════════════════════════════════════════════════
-- Fresh memories
-- ════════════════════════════════════════════════════════════════════════

theorem size_heap_new (program : ByteArray) (heapSize : Nat) (input : ByteArray) :
    ((new program heapSize input).bytes .heap).size = heapSize :=
  Bytes.size_zeros heapSize

theorem fitsRegions_new_iff {program input : ByteArray} {heapSize : Nat} :
    (new program heapSize input).FitsRegions ↔
      program.size ≤ regionSize ∧ heapSize ≤ regionSize ∧ input.size ≤ regionSize := by
  have hheap := size_heap_new program heapSize input
  constructor
  · intro h
    exact ⟨h .program, hheap ▸ h .heap, h .input⟩
  · rintro ⟨hprogram, hheapSize, hinput⟩ region
    cases region with
    | program => exact hprogram
    | stack => exact size_stack_le _
    | heap => rwa [hheap]
    | input => exact hinput

/-- All accesses that a fresh memory grants stay in their regions iff image, heap and input are not
larger than the regions. -/
theorem accesses_stayInRegion_iff (program : ByteArray) (heapSize : Nat) (input : ByteArray) :
    (∀ address size write window, 1 ≤ size →
      (new program heapSize input).window address size write = .ok window →
        StaysInRegion address size) ↔
      program.size ≤ regionSize ∧ heapSize ≤ regionSize ∧ input.size ≤ regionSize := by
  rw [← fitsRegions_new_iff]
  refine ⟨fitsRegions_of_staysInRegion, fun hfits address size write window _ hwindow => ?_⟩
  exact staysInRegion_of_window hfits hwindow

/-- With one byte more than the heap has addresses, a write of two bytes is granted that begins in
the heap and ends at the first address of the input. -/
theorem heap_reaches_input :
    ∃ window, (new .empty (regionSize + 1) .empty).window 0x3ffffffff 2 true = .ok window ∧
      Region.ofAddress? 0x3ffffffff = some .heap ∧
      Region.ofAddress? (0x3ffffffff + 1) = some .input ∧ ¬ StaysInRegion 0x3ffffffff 2 := by
  refine ⟨⟨.heap, 0xffffffff, 2⟩, ?_, by decide, by decide, not_staysInRegion_last .heap⟩
  refine window_eq_ok_iff.2 (locate_eq_ok_iff.2 ⟨by decide, rfl, ?_, rfl⟩)
  rw [size_heap_new]
  decide

end Memory

end SbfMachine
