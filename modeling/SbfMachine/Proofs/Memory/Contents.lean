import SbfMachine.Proofs.Memory.Accesses
import SbfMachine.Proofs.Memory.Regions

/-!
# The contents of a memory

As long as the bytes of a memory fit the regions, an access that is granted can be described without
windows and regions: it finds the bytes at its addresses, in order, and if it is a write, it
replaces these bytes and no others. This also covers accesses to no bytes at all.

## Main definitions

- `Contents` — a byte, or nothing, at each address
- `Memory.byte?` — the contents of a memory
- `Contents.replace` — other bytes in a range of addresses

## Main statements

- `Memory.byte?_of_read` — what is read
- `Memory.byte?_overwrite`, `Memory.byte?_fillWindow` — what a write leaves behind
-/

namespace SbfMachine

/-- What is at each address: a byte, or nothing. -/
abbrev Contents : Type :=
  UInt64 → Option UInt8

/-- The contents with other bytes at the `size` addresses from `target` on. -/
def Contents.replace (contents : Contents) (target : UInt64) (size : Nat)
    (byte : Nat → Option UInt8) : Contents := fun address =>
  if target.toNat ≤ address.toNat ∧ address.toNat < target.toNat + size then
    byte (address.toNat - target.toNat)
  else contents address

theorem Contents.replace_congr {contents : Contents} {target : UInt64} {size : Nat}
    {byte other : Nat → Option UInt8} (h : ∀ i < size, byte i = other i) :
    contents.replace target size byte = contents.replace target size other := by
  funext address
  rw [replace, replace]
  split
  · next hinside => exact h _ (by omega)
  · rfl

namespace Memory

/-- What a program finds at an address when it reads a single byte. -/
def byte? (memory : Memory) : Contents := fun address =>
  (memory.readWord .byte address).toOption.map UInt64.toUInt8

variable {memory : Memory} {address : UInt64} {size : Nat} {write : Bool} {window : Window}

theorem byte?_of_readWord {byte : UInt8} (h : memory.readWord .byte address = .ok byte.toUInt64) :
    memory.byte? address = some byte := by
  rw [byte?, h]
  simp [Except.toOption]

theorem exists_window_of_read {data : ByteArray} (h : memory.read address size = .ok data) :
    ∃ window, memory.window address size false = .ok window ∧ memory.extract window = data := by
  rw [Memory.read] at h
  split at h
  · cases h
  · next window hwindow => exact ⟨window, hwindow, Except.ok.inj h⟩

theorem size_of_read {data : ByteArray} (h : memory.read address size = .ok data) :
    data.size = size := by
  obtain ⟨window, hwindow, rfl⟩ := exists_window_of_read h
  obtain ⟨_, _, hinside, hsize⟩ := locate_eq_ok_iff.1 (window_eq_ok_iff.1 hwindow)
  rw [extract, ByteArray.size_extract]
  omega

/-- Writing no bytes changes nothing. -/
theorem overwrite_of_size_eq_zero {data : ByteArray} (h : data.size = 0) :
    memory.overwrite window data = memory := by
  have hbytes (bytes : ByteArray) : Bytes.overwrite bytes window.start data = bytes := by
    apply Bytes.ext_byteAt (Bytes.size_overwrite bytes window.start data)
    intro i _
    rw [Bytes.byteAt_overwrite, if_neg (by omega)]
  unfold overwrite
  cases window.region <;> simp only [modify, hbytes]

section Granted

variable (hfits : memory.FitsRegions)
include hfits

/-- An access that is granted does not run into the next region. -/
theorem oneRegion_of_window (h : memory.window address size write = .ok window) :
    OneRegion address size := by
  have hregion := (locate_eq_ok_iff.1 (window_eq_ok_iff.1 h)).1
  exact (staysInRegion_iff_oneRegion hregion).1 (staysInRegion_of_window hfits h)

/-- What is read are the bytes at the addresses of the access, in order. -/
theorem byte?_of_read {data : ByteArray} (h : memory.read address size = .ok data) {i : Nat}
    (hi : i < size) : memory.byte? (address + UInt64.ofNat i) = some (Bytes.byteAt data i) := by
  obtain ⟨window, hwindow, _⟩ := exists_window_of_read h
  have honly : OneRegion address size := oneRegion_of_window hfits hwindow
  exact byte?_of_readWord ((bytes_of_read (Nat.zero_lt_of_lt hi) honly h).2 i hi)

/-- A write replaces the bytes at its addresses. -/
theorem byte?_overwrite {data : ByteArray}
    (h : memory.window address data.size true = .ok window) :
    (memory.overwrite window data).byte? =
      memory.byte?.replace address data.size fun i => some (Bytes.byteAt data i) := by
  funext place
  rw [Contents.replace]
  by_cases hsize : 0 < data.size
  · have hwrite : memory.write address data = .ok (memory.overwrite window data) := by
      rw [Memory.write, h]
    have hplace := readByte_of_write hsize (oneRegion_of_window hfits h) hwrite place
    split
    · next hinside =>
      rw [if_pos hinside] at hplace
      exact byte?_of_readWord hplace
    · next houtside =>
      rw [if_neg houtside] at hplace
      rw [byte?, byte?, hplace]
  · rw [if_neg (by omega), overwrite_of_size_eq_zero (by omega)]

/-- Filling sets the bytes at the addresses of the access to one value. -/
theorem byte?_fillWindow {value : UInt8} (h : memory.window address size true = .ok window) :
    (memory.fillWindow window value).byte? =
      memory.byte?.replace address size fun _ => some value := by
  have hsize : window.size = size := Access.size_of_place h
  have hdata : (Bytes.fill (Bytes.zeros size) 0 value size).size = size := by
    rw [Bytes.size_fill, Bytes.size_zeros]
  rw [← hdata] at h
  rw [fillWindow_eq_overwrite, hsize, byte?_overwrite hfits h, hdata]
  refine Contents.replace_congr fun i hi => ?_
  rw [Bytes.byteAt_fill, Bytes.size_zeros, if_pos (by omega)]

end Granted

end Memory

end SbfMachine
