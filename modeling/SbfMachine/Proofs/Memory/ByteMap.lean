import SbfMachine.Machine.Step
import SbfMachine.Proofs.Bytes
import SbfMachine.Proofs.Memory.Cells
import SbfMachine.Proofs.Outcomes

/-!
# Memory as a map of bytes

What a program can observe of the memory is a map from addresses to bytes: every access, of
whatever size, reads and writes the bytes at its addresses and no others. The regions, the gaps of
the stack and the order in which frames are stored do not show.

## Main definitions

- `Memory.Readable` — the addresses that have a byte
- `Memory.ByteMap` — the laws of the map

## Main statements

- `Memory.byteMap` — the laws hold of every memory
-/

namespace SbfMachine

theorem Width.bytes_pos (width : Width) : 0 < width.bytes := by
  cases width <;> decide

theorem Width.bytes_le (width : Width) : width.bytes ≤ 8 := by
  cases width <;> decide

namespace Memory

/-- There is a byte at the address. -/
def Readable (memory : Memory) (address : UInt64) : Prop :=
  ∃ value, memory.readWord .byte address = .ok value

-- ════════════════════════════════════════════════════════════════════════
-- Single bytes
-- ════════════════════════════════════════════════════════════════════════

section Bytes

variable {memory : Memory} {address : UInt64} {region : Region} {start : Nat}

theorem readByte_eq (memory : Memory) (address : UInt64) :
    memory.readWord .byte address = (memory.window address 1 false).map fun window =>
      (Bytes.byteAt (memory.bytes window.region) window.start).toUInt64 := by
  rw [readWord, Width.bytes]
  cases memory.window address 1 false with
  | error => rfl
  | ok window => simp [Bytes.readLE, Except.map]

theorem readByte_of_cell? (h : memory.cell? address = some (region, start)) :
    memory.readWord .byte address = .ok (Bytes.byteAt (memory.bytes region) start).toUInt64 := by
  obtain ⟨hregion, hstart, hfits⟩ := cell?_eq_some_iff.1 h
  have hwindow : memory.window address 1 false = .ok ⟨region, start, 1⟩ :=
    window_eq_ok_iff.2 (locate_eq_ok_iff.2 ⟨hregion, hstart, hfits, rfl⟩)
  rw [readByte_eq, hwindow]
  rfl

theorem readable_iff_cell? :
    memory.Readable address ↔ ∃ cell, memory.cell? address = some cell := by
  constructor
  · rintro ⟨value, hvalue⟩
    unfold readWord at hvalue
    split at hvalue
    · cases hvalue
    · next window hwindow =>
      have hlocate : memory.locate address 1 false = .ok window := window_eq_ok_iff.1 hwindow
      exact ⟨(window.region, window.start), by rw [cell?, hlocate]⟩
  · rintro ⟨⟨region, start⟩, hcell⟩
    exact ⟨_, readByte_of_cell? hcell⟩

end Bytes

-- ════════════════════════════════════════════════════════════════════════
-- Writing
-- ════════════════════════════════════════════════════════════════════════

section Writes

variable {memory : Memory} {window : Window}

theorem bytes_overwrite (hwritable : window.region ≠ .program) (data : ByteArray)
    (region : Region) :
    (memory.overwrite window data).bytes region =
      if region = window.region then Bytes.overwrite (memory.bytes region) window.start data
      else memory.bytes region := by
  obtain ⟨written, start, size⟩ := window
  cases written <;> cases region <;> simp [overwrite, modify, bytes] at hwritable ⊢

theorem size_bytes_overwrite (data : ByteArray) (region : Region) :
    ((memory.overwrite window data).bytes region).size = (memory.bytes region).size := by
  obtain ⟨written, start, size⟩ := window
  cases written <;> cases region <;> simp [overwrite, modify, bytes]

/-- Where accesses go depends only on how many bytes there are. -/
theorem locate_overwrite (data : ByteArray) (address : UInt64) (size : Nat) (write : Bool) :
    (memory.overwrite window data).locate address size write =
      memory.locate address size write := by
  simp only [locate, size_bytes_overwrite]

theorem cell?_overwrite (data : ByteArray) (address : UInt64) :
    (memory.overwrite window data).cell? address = memory.cell? address := by
  rw [cell?, cell?, locate_overwrite]

/-- Storing a number is writing its bytes. -/
theorem writeWord_eq_write (width : Width) (address value : UInt64) :
    memory.writeWord width address value =
      memory.write address (Bytes.encodeLE value width.bytes) := by
  unfold writeWord write
  rw [Bytes.size_encodeLE]
  cases hwindow : memory.window address width.bytes true with
  | error => rfl
  | ok window =>
    have hsize := (locate_eq_ok_iff.1 (window_eq_ok_iff.1 hwindow)).2.2.2
    simp only [store, overwrite, Bytes.writeLE_eq_overwrite, hsize]

/-- Reading a number is reading its bytes. -/
theorem readWord_eq_read (width : Width) (address : UInt64) :
    memory.readWord width address =
      (memory.read address width.bytes).map fun data => Bytes.readLE data 0 width.bytes := by
  unfold readWord read
  cases hwindow : memory.window address width.bytes false with
  | error => rfl
  | ok window =>
    have hsize := (locate_eq_ok_iff.1 (window_eq_ok_iff.1 hwindow)).2.2.2
    have hbytes : Bytes.readLE (memory.bytes window.region) window.start width.bytes =
        Bytes.readLE (memory.extract window) 0 width.bytes := by
      apply Bytes.readLE_congr
      intro i hi
      rw [extract, Bytes.byteAt_extract, if_pos (by omega), Nat.zero_add]
    simp only [Except.map, hbytes]

end Writes

-- ════════════════════════════════════════════════════════════════════════
-- Grants and refusals
-- ════════════════════════════════════════════════════════════════════════

section Grants

variable {memory : Memory} {address : UInt64} {size : Nat} {write : Bool}

/-- An access is granted iff its bytes can be read and, if it is a write, the region can be
written. -/
theorem exists_window_iff (hsize : 0 < size) (honly : OneRegion address size) :
    (∃ window, memory.window address size write = .ok window) ↔
      (∀ i < size, memory.Readable (address + UInt64.ofNat i)) ∧
        (write = true → Region.ofAddress? address ≠ some .program) := by
  simp only [window_eq_ok_iff, readable_iff_cell?]
  rw [exists_locate_iff honly hsize, and_comm]

theorem read_eq_map (memory : Memory) (address : UInt64) (size : Nat) :
    memory.read address size = (memory.window address size false).map memory.extract := by
  unfold read
  cases memory.window address size false <;> rfl

theorem write_eq_map (memory : Memory) (address : UInt64) (data : ByteArray) :
    memory.write address data =
      (memory.window address data.size true).map (memory.overwrite · data) := by
  unfold Memory.write
  cases memory.window address data.size true <;> rfl

theorem fill_eq_map (memory : Memory) (address : UInt64) (size : Nat) (value : UInt8) :
    memory.fill address size value =
      (memory.window address size true).map (memory.fillWindow · value) := by
  unfold fill
  cases memory.window address size true <;> rfl

theorem exists_read_iff (hsize : 0 < size) (honly : OneRegion address size) :
    (∃ data, memory.read address size = .ok data) ↔
      ∀ i < size, memory.Readable (address + UInt64.ofNat i) := by
  rw [read_eq_map, exists_map_eq_ok_iff, exists_window_iff hsize honly]
  exact and_iff_left fun h => absurd h Bool.false_ne_true

theorem exists_write_iff {data : ByteArray} (hsize : 0 < data.size)
    (honly : OneRegion address data.size) :
    (∃ written, memory.write address data = .ok written) ↔
      (∀ i < data.size, memory.Readable (address + UInt64.ofNat i)) ∧
        Region.ofAddress? address ≠ some .program := by
  rw [write_eq_map, exists_map_eq_ok_iff, exists_window_iff hsize honly]
  simp only [forall_const]

end Grants

-- ════════════════════════════════════════════════════════════════════════
-- Accesses and their bytes
-- ════════════════════════════════════════════════════════════════════════

section Accesses

variable {memory : Memory} {address : UInt64} {size : Nat}

/-- What is read at once is what is read byte by byte. -/
theorem bytes_of_read {data : ByteArray} (hsize : 0 < size) (honly : OneRegion address size)
    (hread : memory.read address size = .ok data) :
    data.size = size ∧ ∀ i < size,
      memory.readWord .byte (address + UInt64.ofNat i) = .ok (Bytes.byteAt data i).toUInt64 := by
  unfold read at hread
  split at hread
  · cases hread
  · next window hwindow =>
    obtain rfl := Except.ok.inj hread
    have hlocate := window_eq_ok_iff.1 hwindow
    obtain ⟨_, hlength, hcells⟩ := (locate_iff_cells honly hsize).1 hlocate
    have hfits := (locate_eq_ok_iff.1 hlocate).2.2.1
    refine ⟨?_, fun i hi => ?_⟩
    · rw [extract, ByteArray.size_extract]
      omega
    · rw [readByte_of_cell? (hcells i hi), extract, Bytes.byteAt_extract, if_pos (by omega)]

/-- After a write, the bytes in its range are those written, and all others are as before. -/
theorem readByte_of_write {data : ByteArray} {written : Memory} (hsize : 0 < data.size)
    (honly : OneRegion address data.size) (hwrite : memory.write address data = .ok written)
    (place : UInt64) :
    written.readWord .byte place =
      if address.toNat ≤ place.toNat ∧ place.toNat < address.toNat + data.size then
        .ok (Bytes.byteAt data (place.toNat - address.toNat)).toUInt64
      else memory.readWord .byte place := by
  unfold Memory.write at hwrite
  split at hwrite
  · cases hwrite
  next window hwindow =>
  obtain rfl := Except.ok.inj hwrite
  have hlocate := window_eq_ok_iff.1 hwindow
  obtain ⟨hwritable, _, hcells⟩ := (locate_iff_cells honly hsize).1 hlocate
  have hfits := (locate_eq_ok_iff.1 hlocate).2.2.1
  have hbytes (region : Region) : (memory.overwrite window data).bytes region =
      if region = window.region then Bytes.overwrite (memory.bytes region) window.start data
      else memory.bytes region :=
    bytes_overwrite (hwritable rfl) data region
  split
  · next hinside =>
    obtain ⟨i, hi, rfl⟩ : ∃ i < data.size, place = address + UInt64.ofNat i := by
      refine ⟨place.toNat - address.toNat, by omega, ?_⟩
      rw [← UInt64.toNat_inj, honly.toNat_add (by omega)]
      omega
    have hcell := hcells i hi
    rw [← cell?_overwrite data] at hcell
    rw [readByte_of_cell? hcell, hbytes, if_pos rfl, Bytes.byteAt_overwrite, if_pos (by omega),
      honly.toNat_add hi]
    rw [Nat.add_sub_cancel_left, Nat.add_sub_cancel_left]
  · next houtside =>
    rw [readByte_eq, readByte_eq, Memory.window, Memory.window, locate_overwrite]
    cases hplace : memory.locate place 1 false with
    | error => rfl
    | ok other =>
      have hother : memory.cell? place = some (other.region, other.start) := by rw [cell?, hplace]
      have hsame : Bytes.byteAt ((memory.overwrite window data).bytes other.region) other.start =
          Bytes.byteAt (memory.bytes other.region) other.start := by
        rw [hbytes]
        split
        · next hregion =>
          rw [Bytes.byteAt_overwrite, if_neg]
          rintro ⟨hlow, hhigh, _⟩
          -- A cell of the window belongs to an address in the range.
          have hcell := hcells (other.start - window.start) (by omega)
          rw [← hregion, Nat.add_sub_cancel' hlow] at hcell
          have hrange := honly.toNat_add (i := other.start - window.start) (by omega)
          rw [cell?_injective hother hcell, hrange] at houtside
          omega
        · rfl
      simp only [Except.map, hsame]

end Accesses

-- ════════════════════════════════════════════════════════════════════════
-- Numbers
-- ════════════════════════════════════════════════════════════════════════

section Numbers

variable {memory : Memory} {width : Width} {address : UInt64}

/-- The number at an address is the one whose digits to base 256 are the bytes there. -/
theorem digits_of_readWord {value : UInt64} (honly : OneRegion address width.bytes)
    (hread : memory.readWord width address = .ok value) :
    ∃ bytes : Nat → UInt64,
      (∀ i < width.bytes, memory.readWord .byte (address + UInt64.ofNat i) = .ok (bytes i)) ∧
        value.toNat = Nat.ofDigits 256 ((List.range width.bytes).map fun i => (bytes i).toNat) := by
  rw [readWord_eq_read] at hread
  cases hdata : memory.read address width.bytes with
  | error =>
    rw [hdata] at hread
    cases hread
  | ok data =>
    rw [hdata] at hread
    obtain rfl := Except.ok.inj hread
    obtain ⟨_, hbytes⟩ := bytes_of_read width.bytes_pos honly hdata
    refine ⟨fun i => (Bytes.byteAt data i).toUInt64, hbytes, ?_⟩
    rw [(Bytes.toNat_readLE data 0 width.bytes_le).1]
    simp only [Nat.zero_add, UInt8.toNat_toUInt64]

/-- Writing a number changes the bytes at its addresses to its digits to base 256. -/
theorem readByte_of_writeWord {value : UInt64} {written : Memory}
    (honly : OneRegion address width.bytes)
    (hwrite : memory.writeWord width address value = .ok written) (place : UInt64) :
    written.readWord .byte place =
      if address.toNat ≤ place.toNat ∧ place.toNat < address.toNat + width.bytes then
        .ok (UInt64.ofNat (value.toNat / 256 ^ (place.toNat - address.toNat) % 256))
      else memory.readWord .byte place := by
  have hsize := Bytes.size_encodeLE value width.bytes
  rw [writeWord_eq_write] at hwrite
  rw [readByte_of_write (by rw [hsize]; exact width.bytes_pos) (by rw [hsize]; exact honly) hwrite,
    hsize]
  split
  · next hinside =>
    rw [Bytes.byteAt_encodeLE, if_pos (by omega), Bytes.toUInt64_digit]
  · rfl

end Numbers

-- ════════════════════════════════════════════════════════════════════════
-- The laws
-- ════════════════════════════════════════════════════════════════════════

/-- The laws of a map from addresses to bytes, for accesses that do not run into the next region;
what is said about refused accesses holds of all accesses. -/
structure ByteMap (memory : Memory) : Prop where
  /-- A range can be read iff each of its bytes can. -/
  read_iff : ∀ address size, 0 < size → OneRegion address size →
    ((∃ data, memory.read address size = .ok data) ↔
      ∀ i < size, memory.Readable (address + UInt64.ofNat i))
  /-- What is read are the bytes at the addresses of the range, in order. -/
  read_bytes : ∀ address size data, 0 < size → OneRegion address size →
    memory.read address size = .ok data → data.size = size ∧ ∀ i < size,
      memory.readWord .byte (address + UInt64.ofNat i) = .ok (Bytes.byteAt data i).toUInt64
  /-- A range can be changed iff it can be read and does not lie in the program image. -/
  window_iff : ∀ address size, 0 < size → OneRegion address size →
    ((∃ window, memory.window address size true = .ok window) ↔
      (∀ i < size, memory.Readable (address + UInt64.ofNat i)) ∧
        Region.ofAddress? address ≠ some .program)
  write_iff : ∀ address data, 0 < data.size → OneRegion address data.size →
    ((∃ written, memory.write address data = .ok written) ↔
      (∀ i < data.size, memory.Readable (address + UInt64.ofNat i)) ∧
        Region.ofAddress? address ≠ some .program)
  /-- A write changes the bytes in its range to those written, and at every other address a byte, or
  the fault that there is none, stays as it is. -/
  write_bytes : ∀ address data written, 0 < data.size → OneRegion address data.size →
    memory.write address data = .ok written → ∀ place,
      written.readWord .byte place =
        if address.toNat ≤ place.toNat ∧ place.toNat < address.toNat + data.size then
          .ok (Bytes.byteAt data (place.toNat - address.toNat)).toUInt64
        else memory.readWord .byte place
  /-- Different addresses are different cells. -/
  distinct : ∀ address other, memory.Readable address → memory.Readable other →
    address ≠ other → memory.cell? address ≠ memory.cell? other
  readWord_iff : ∀ width address, OneRegion address width.bytes →
    ((∃ value, memory.readWord width address = .ok value) ↔
      ∀ i < width.bytes, memory.Readable (address + UInt64.ofNat i))
  /-- The digits of a number to base 256 are the bytes at its addresses, least significant first. -/
  readWord_bytes : ∀ width address value, OneRegion address width.bytes →
    memory.readWord width address = .ok value → ∃ bytes : Nat → UInt64,
      (∀ i < width.bytes, memory.readWord .byte (address + UInt64.ofNat i) = .ok (bytes i)) ∧
        value.toNat = Nat.ofDigits 256 ((List.range width.bytes).map fun i => (bytes i).toNat)
  writeWord_iff : ∀ width address value, OneRegion address width.bytes →
    ((∃ written, memory.writeWord width address value = .ok written) ↔
      (∀ i < width.bytes, memory.Readable (address + UInt64.ofNat i)) ∧
        Region.ofAddress? address ≠ some .program)
  /-- Writing a number writes its digits to base 256, least significant first. -/
  writeWord_bytes : ∀ width address value written, OneRegion address width.bytes →
    memory.writeWord width address value = .ok written → ∀ place,
      written.readWord .byte place =
        if address.toNat ≤ place.toNat ∧ place.toNat < address.toNat + width.bytes then
          .ok (UInt64.ofNat (value.toNat / 256 ^ (place.toNat - address.toNat) % 256))
        else memory.readWord .byte place
  /-- A refused access is reported with its address, its size and whether it is a write. -/
  read_fault : ∀ address size fault, memory.read address size = .error fault →
    ∃ refusal, fault = .accessViolation address size false refusal
  write_fault : ∀ address data fault, memory.write address data = .error fault →
    ∃ refusal, fault = .accessViolation address data.size true refusal
  fill_fault : ∀ address size value fault, memory.fill address size value = .error fault →
    ∃ refusal, fault = .accessViolation address size true refusal
  readWord_fault : ∀ width address fault, memory.readWord width address = .error fault →
    ∃ refusal, fault = .accessViolation address width.bytes false refusal
  writeWord_fault : ∀ width address value fault,
    memory.writeWord width address value = .error fault →
      ∃ refusal, fault = .accessViolation address width.bytes true refusal
  /-- A system call whose access is refused has not changed anything by it. -/
  slice_fault : ∀ address size fault (context final : Context), context.memory = memory →
    Syscall.slice address size context = .error fault final →
      final = context ∧ ∃ refusal, fault = .accessViolation address size.toNat false refusal
  writeSlice_fault : ∀ address data fault (context final : Context), context.memory = memory →
    Syscall.writeSlice address data context = .error fault final →
      final = context ∧ ∃ refusal, fault = .accessViolation address data.size true refusal
  fillSlice_fault : ∀ address size value fault (context final : Context), context.memory = memory →
    Syscall.fillSlice address size value context = .error fault final →
      final = context ∧ ∃ refusal, fault = .accessViolation address size.toNat true refusal
  /-- Neither does an instruction whose access is refused change the machine. -/
  load_fault : ∀ program syscalls slot width fault (machine final : Machine),
    machine.memory = memory → Opcode.ofByte? slot.opcode = some (.load width) →
      Machine.execute program syscalls slot machine = .faulted fault final →
        final = machine ∧ ∃ refusal, fault = .accessViolation
          (machine.registers.get slot.src + slot.displacement) width.bytes false refusal
  store_fault : ∀ program syscalls slot width form fault (machine final : Machine),
    machine.memory = memory → Opcode.ofByte? slot.opcode = some (.store width form) →
      Machine.execute program syscalls slot machine = .faulted fault final →
        final = machine ∧ ∃ refusal, fault = .accessViolation
          (machine.registers.get slot.dst + slot.displacement) width.bytes true refusal

section Refusals

variable {memory : Memory} {address : UInt64} {fault : Fault}

theorem refusal_of_read {size : Nat} (h : memory.read address size = .error fault) :
    ∃ refusal, fault = .accessViolation address size false refusal := by
  rw [read_eq_map, map_eq_error_iff] at h
  exact exists_refusal_of_window h

theorem refusal_of_write {data : ByteArray} (h : memory.write address data = .error fault) :
    ∃ refusal, fault = .accessViolation address data.size true refusal := by
  rw [write_eq_map, map_eq_error_iff] at h
  exact exists_refusal_of_window h

theorem refusal_of_fill {size : Nat} {value : UInt8}
    (h : memory.fill address size value = .error fault) :
    ∃ refusal, fault = .accessViolation address size true refusal := by
  rw [fill_eq_map, map_eq_error_iff] at h
  exact exists_refusal_of_window h

theorem refusal_of_writeWord {width : Width} {value : UInt64}
    (h : memory.writeWord width address value = .error fault) :
    ∃ refusal, fault = .accessViolation address width.bytes true refusal := by
  rw [writeWord_eq_write] at h
  have hrefusal := refusal_of_write h
  rw [Bytes.size_encodeLE] at hrefusal
  exact hrefusal

theorem unchanged_of_slice {size : UInt64} {context final : Context}
    (h : Syscall.slice address size context = .error fault final) :
    final = context ∧ ∃ refusal, fault = .accessViolation address size.toNat false refusal := by
  unfold Syscall.slice at h
  split at h
  · cases h
  · next hread =>
    obtain ⟨rfl, rfl⟩ := EStateM.Result.error.inj h
    exact ⟨rfl, refusal_of_read hread⟩

theorem unchanged_of_writeSlice {data : ByteArray} {context final : Context}
    (h : Syscall.writeSlice address data context = .error fault final) :
    final = context ∧ ∃ refusal, fault = .accessViolation address data.size true refusal := by
  unfold Syscall.writeSlice at h
  split at h
  · cases h
  · next hwindow =>
    obtain ⟨rfl, rfl⟩ := EStateM.Result.error.inj h
    exact ⟨rfl, exists_refusal_of_window hwindow⟩

theorem unchanged_of_fillSlice {size : UInt64} {value : UInt8} {context final : Context}
    (h : Syscall.fillSlice address size value context = .error fault final) :
    final = context ∧ ∃ refusal, fault = .accessViolation address size.toNat true refusal := by
  unfold Syscall.fillSlice at h
  split at h
  · cases h
  · next hwindow =>
    obtain ⟨rfl, rfl⟩ := EStateM.Result.error.inj h
    exact ⟨rfl, exists_refusal_of_window hwindow⟩

end Refusals

section Instructions

variable {program : Program} {syscalls : Registry} {slot : Slot} {width : Width}
  {machine final : Machine} {fault : Fault}

theorem unchanged_of_load (hdecoded : Opcode.ofByte? slot.opcode = some (.load width))
    (h : Machine.execute program syscalls slot machine = .faulted fault final) :
    final = machine ∧ ∃ refusal, fault = .accessViolation
      (machine.registers.get slot.src + slot.displacement) width.bytes false refusal := by
  simp only [Machine.execute, hdecoded] at h
  split at h
  · next hread =>
    obtain ⟨rfl, rfl⟩ := Outcome.faulted.inj h
    exact ⟨rfl, exists_refusal_of_window (readWord_eq_error_iff.1 hread)⟩
  · cases h

theorem unchanged_of_store {form : OperandForm}
    (hdecoded : Opcode.ofByte? slot.opcode = some (.store width form))
    (h : Machine.execute program syscalls slot machine = .faulted fault final) :
    final = machine ∧ ∃ refusal, fault = .accessViolation
      (machine.registers.get slot.dst + slot.displacement) width.bytes true refusal := by
  simp only [Machine.execute, hdecoded] at h
  split at h
  · next hwindow =>
    obtain ⟨rfl, rfl⟩ := Outcome.faulted.inj h
    exact ⟨rfl, exists_refusal_of_window hwindow⟩
  · cases h

end Instructions

/-- The memory is a map from addresses to bytes. -/
theorem byteMap (memory : Memory) : ByteMap memory where
  read_iff address size hsize honly := exists_read_iff hsize honly
  read_bytes address size data hsize honly hread := bytes_of_read hsize honly hread
  window_iff address size hsize honly := by
    rw [exists_window_iff hsize honly]
    simp only [forall_const]
  write_iff address data hsize honly := exists_write_iff hsize honly
  write_bytes address data written hsize honly hwrite := readByte_of_write hsize honly hwrite
  distinct address other hreadable hreadable' hne heq := by
    obtain ⟨cell, hcell⟩ := readable_iff_cell?.1 hreadable
    exact hne (cell?_injective hcell (heq.symm.trans hcell))
  readWord_iff width address honly := by
    rw [readWord_eq_read, exists_map_eq_ok_iff]
    exact exists_read_iff width.bytes_pos honly
  readWord_bytes width address value honly hread := digits_of_readWord honly hread
  writeWord_iff width address value honly := by
    have hsize := Bytes.size_encodeLE value width.bytes
    rw [writeWord_eq_write, exists_write_iff, hsize]
    · rw [hsize]
      exact width.bytes_pos
    · rw [hsize]
      exact honly
  writeWord_bytes width address value written honly hwrite := readByte_of_writeWord honly hwrite
  read_fault address size fault h := refusal_of_read h
  write_fault address data fault h := refusal_of_write h
  fill_fault address size value fault h := refusal_of_fill h
  readWord_fault width address fault h := exists_refusal_of_window (readWord_eq_error_iff.1 h)
  writeWord_fault width address value fault h := refusal_of_writeWord h
  slice_fault address size fault context final _ h := unchanged_of_slice h
  writeSlice_fault address data fault context final _ h := unchanged_of_writeSlice h
  fillSlice_fault address size value fault context final _ h := unchanged_of_fillSlice h
  load_fault program syscalls slot width fault machine final _ hdecoded h :=
    unchanged_of_load hdecoded h
  store_fault program syscalls slot width form fault machine final _ hdecoded h :=
    unchanged_of_store hdecoded h

/-- A memory with eight bytes of heap and one byte of input. -/
def smallMemory : Memory :=
  new ByteArray.empty 8 ⟨#[9]⟩

/-- A message of three bytes. -/
def threeBytes : ByteArray :=
  ⟨#[5, 6, 7]⟩

/-- Three bytes that are written to the heap are read back, alone and as a number. The bytes beside
them and those of the input stay as they were, and three bytes that leave the heap are refused. -/
theorem byteMap_of_heapWrite :
    ∃ written, smallMemory.write 0x300000002 threeBytes = .ok written ∧
      written.readWord .byte 0x300000004 = .ok 7 ∧ written.readWord .byte 0x300000005 = .ok 0 ∧
      written.readWord .byte 0x400000000 = .ok 9 ∧
      (∃ value, written.readWord .half 0x300000002 = .ok value ∧ value.toNat = 5 + 256 * 6) ∧
      ∀ other, smallMemory.write 0x300000006 threeBytes ≠ .ok other := by
  have honly : OneRegion 0x300000002 threeBytes.size := by decide
  have hreadable : ∀ i < threeBytes.size, smallMemory.Readable (0x300000002 + UInt64.ofNat i)
    | 0, _ => ⟨0, rfl⟩
    | 1, _ => ⟨0, rfl⟩
    | 2, _ => ⟨0, rfl⟩
  obtain ⟨written, hwritten⟩ :=
    ((byteMap smallMemory).write_iff _ _ (by decide) honly).2 ⟨hreadable, by decide⟩
  have hbytes := (byteMap smallMemory).write_bytes _ _ _ (by decide) honly hwritten
  have hfirst : written.readWord .byte 0x300000002 = .ok 5 := hbytes _
  have hsecond : written.readWord .byte 0x300000003 = .ok 6 := hbytes _
  refine ⟨written, hwritten, hbytes _, hbytes _, hbytes _, ?_, fun other hother => ?_⟩
  · have hpair : ∀ i < Width.half.bytes, written.Readable (0x300000002 + UInt64.ofNat i)
      | 0, _ => ⟨5, hfirst⟩
      | 1, _ => ⟨6, hsecond⟩
    obtain ⟨value, hvalue⟩ := ((byteMap written).readWord_iff .half _ (by decide)).2 hpair
    obtain ⟨bytes, hdigits, hnat⟩ := (byteMap written).readWord_bytes .half _ _ (by decide) hvalue
    have hlow : 5 = bytes 0 := Except.ok.inj (hfirst.symm.trans (hdigits 0 (by decide)))
    have hhigh : 6 = bytes 1 := Except.ok.inj (hsecond.symm.trans (hdigits 1 (by decide)))
    refine ⟨value, hvalue, ?_⟩
    rw [hnat, show List.range Width.half.bytes = [0, 1] from rfl]
    simp only [List.map_cons, List.map_nil, ← hlow, ← hhigh]
    rfl
  · obtain ⟨hinside, -⟩ :=
      ((byteMap smallMemory).write_iff _ _ (by decide) (by decide)).1 ⟨other, hother⟩
    obtain ⟨value, hvalue⟩ := hinside 2 (by decide)
    cases hvalue

end Memory

end SbfMachine
