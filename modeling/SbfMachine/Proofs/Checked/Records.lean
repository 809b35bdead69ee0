import SbfMachine.Elf.Record
import SbfMachine.Proofs.Checked.Operations

/-!
# Checked reading of records

Records, tables and strings are read from a file by cutting out their bytes and indexing those.
That never traps: what is cut out is compared with the size of the file before, and a record is
decoded from as many bytes as it has.

## Main definitions

- `Checked.word` — a little-endian number
- `CheckedRecord` — records that are decoded byte by byte, which does not trap
- `Checked.readRecord`, `Checked.readTable`, `Checked.readString` — reading with operations that may
  trap

## Main statements

- `Checked.readRecord_eq`, `Checked.readTable_eq`, `Checked.readString_eq` — reading does not trap
-/

namespace SbfMachine

open Elf

namespace Checked

-- ════════════════════════════════════════════════════════════════════════
-- Numbers
-- ════════════════════════════════════════════════════════════════════════

/-- The number in the `width` bytes from `offset` on. -/
def word (raw : ByteArray) (offset : Nat) : (width : Nat) → Checked UInt64
  | 0 => return 0
  | width + 1 => do
    let low ← index raw offset
    let next ← add offset 1
    let high ← word raw next width
    return low.toUInt64 + 256 * high

theorem word_eq {raw : ByteArray} {offset width : Nat} (hinside : offset + width ≤ raw.size)
    (hsize : raw.size < UInt64.size) :
    word raw offset width = pure (Bytes.readLE raw offset width) := by
  induction width generalizing offset with
  | zero => rfl
  | succ width ih =>
    rw [word, index_eq (by omega), pure_bind, add_eq (by omega), pure_bind, ih (by omega),
      pure_bind]
    rfl

/-- A part of a part is a part of the whole. -/
theorem extract_extract (file : ByteArray) (start : Nat) {count offset size : Nat}
    (hinside : offset + size ≤ count) :
    (file.extract start (start + count)).extract offset (offset + size) =
      file.extract (start + offset) (start + offset + size) := by
  rw [ByteArray.extract_extract, Nat.min_eq_left (by omega), Nat.add_assoc]

section Extract

variable {file : ByteArray} {start count : Nat} (hfile : start + count ≤ file.size)
include hfile

theorem size_extract : (file.extract start (start + count)).size = count := by
  rw [ByteArray.size_extract]
  omega

theorem word_extract {offset width : Nat} (hinside : offset + width ≤ count)
    (hcount : count < UInt64.size) :
    word (file.extract start (start + count)) offset width =
      pure (Bytes.readLE file (start + offset) width) := by
  have hsize := size_extract hfile
  rw [word_eq (by omega) (by omega)]
  congr 1
  apply Bytes.readLE_congr
  intro i hi
  rw [Bytes.byteAt_extract, if_pos (by omega), Nat.add_assoc]

theorem index_extract {offset : Nat} (hinside : offset < count) :
    index (file.extract start (start + count)) offset =
      pure (Bytes.byteAt file (start + offset)) := by
  have hsize := size_extract hfile
  rw [index_eq (by omega), Bytes.byteAt_extract, if_pos (by omega)]

end Extract

end Checked

-- ════════════════════════════════════════════════════════════════════════
-- Records
-- ════════════════════════════════════════════════════════════════════════

open Checked in
/-- A kind of record that is decoded from its bytes, indexing one after the other. -/
class CheckedRecord (α : Type) extends Record α where
  decodeRaw : ByteArray → Checked α
  /-- Indexes stay inside the bytes of a record. -/
  decodeRaw_eq (file : ByteArray) (start : Nat) (hfile : start + size ≤ file.size) :
    decodeRaw (file.extract start (start + size)) = pure (decode file start)

open Checked

instance : CheckedRecord FileHeader where
  decodeRaw raw := do
    let magic ← slice raw 0 16
    let ident ← copied 16 magic
    let kind ← word raw 16 2
    let machine ← word raw 18 2
    let version ← word raw 20 4
    let entry ← word raw 24 8
    let phoff ← word raw 32 8
    let shoff ← word raw 40 8
    let flags ← word raw 48 4
    let ehsize ← word raw 52 2
    let phentsize ← word raw 54 2
    let phnum ← word raw 56 2
    let shentsize ← word raw 58 2
    let shnum ← word raw 60 2
    let shstrndx ← word raw 62 2
    return {
      ident, kind := kind.toUInt16, machine := machine.toUInt16, version := version.toUInt32
      entry, phoff, shoff, flags := flags.toUInt32, ehsize := ehsize.toUInt16
      phentsize := phentsize.toUInt16, phnum := phnum.toUInt16, shentsize := shentsize.toUInt16
      shnum := shnum.toUInt16, shstrndx := shstrndx.toUInt16 }
  decodeRaw_eq file start hfile := by
    have hident : slice (file.extract start (start + Record.size FileHeader)) 0 16 =
        pure (file.extract start (start + 16)) := by
      rw [slice_eq (Nat.zero_le _) (by rw [size_extract hfile]; decide)]
      exact congrArg pure (@extract_extract file start _ 0 16 (by decide))
    have hcopied : copied 16 (file.extract start (start + 16)) =
        pure (file.extract start (start + 16)) :=
      copied_eq (size_extract (Nat.le_trans (Nat.add_le_add_left (by decide) start) hfile))
    simp (disch := decide) only [hident, hcopied, word_extract hfile, pure_bind]
    rfl

instance : CheckedRecord ProgramHeader where
  decodeRaw raw := do
    let kind ← word raw 0 4
    let flags ← word raw 4 4
    let offset ← word raw 8 8
    let vaddr ← word raw 16 8
    let paddr ← word raw 24 8
    let filesz ← word raw 32 8
    let memsz ← word raw 40 8
    let align ← word raw 48 8
    return {
      kind := kind.toUInt32, flags := flags.toUInt32
      offset, vaddr, paddr, filesz, memsz, align }
  decodeRaw_eq file start hfile := by
    simp (disch := decide) only [word_extract hfile, pure_bind]
    rfl

instance : CheckedRecord SectionHeader where
  decodeRaw raw := do
    let name ← word raw 0 4
    let kind ← word raw 4 4
    let flags ← word raw 8 8
    let addr ← word raw 16 8
    let offset ← word raw 24 8
    let size ← word raw 32 8
    let link ← word raw 40 4
    let info ← word raw 44 4
    let addralign ← word raw 48 8
    let entsize ← word raw 56 8
    return {
      name := name.toUInt32, kind := kind.toUInt32, flags, addr, offset, size
      link := link.toUInt32, info := info.toUInt32, addralign, entsize }
  decodeRaw_eq file start hfile := by
    simp (disch := decide) only [word_extract hfile, pure_bind]
    rfl

instance : CheckedRecord DynamicEntry where
  decodeRaw raw := do
    let tag ← word raw 0 8
    let value ← word raw 8 8
    return { tag, value }
  decodeRaw_eq file start hfile := by
    simp (disch := decide) only [word_extract hfile, pure_bind]
    rfl

instance : CheckedRecord Relocation where
  decodeRaw raw := do
    let offset ← word raw 0 8
    let info ← word raw 8 8
    return { offset, info }
  decodeRaw_eq file start hfile := by
    simp (disch := decide) only [word_extract hfile, pure_bind]
    rfl

instance : CheckedRecord Symbol where
  decodeRaw raw := do
    let name ← word raw 0 4
    let info ← index raw 4
    let other ← index raw 5
    let shndx ← word raw 6 2
    let value ← word raw 8 8
    let size ← word raw 16 8
    return { name := name.toUInt32, info, other, shndx := shndx.toUInt16, value, size }
  decodeRaw_eq file start hfile := by
    simp (disch := decide) only [word_extract hfile, index_extract hfile, pure_bind]
    rfl

namespace Checked

-- ════════════════════════════════════════════════════════════════════════
-- Files
-- ════════════════════════════════════════════════════════════════════════

def readRecord (α : Type) [CheckedRecord α] (file : ByteArray) (offset : Nat) : Checked α :=
  if offset + Record.size α ≤ file.size then
    CheckedRecord.decodeRaw (file.extract offset (offset + Record.size α))
  else throw (.truncated (Record.item α) offset)

/-- The table is cut out of the file, and the records out of the table. -/
def readTable (α : Type) [CheckedRecord α] (file : ByteArray) (offset size : Nat) :
    Checked (Array α) :=
  if offset + size ≤ file.size then do
    let table ← slice file offset (offset + size)
    if table.size % Record.size α = 0 then
      let records ← (List.range (table.size / Record.size α)).mapM fun i =>
        let start := Record.size α * i
        CheckedRecord.decodeRaw (table.extract start (start + Record.size α))
      return records.toArray
    else throw (.truncated (Record.item α) offset)
  else throw (.truncated (Record.item α) offset)

/-- The string is cut out of the part of the file in which the zero byte has to be. -/
def readString (file : ByteArray) (table : SectionHeader) (offset : UInt32) (limit : Nat) :
    Checked String :=
  let start := table.offset.toNat + offset.toNat
  let stop := min table.stop (start + limit)
  if table.kind = stringTableKind ∧ offset.toNat < table.size.toNat ∧
      table.stop < UInt64.size ∧ stop ≤ file.size then do
    let window := file.extract start stop
    match lengthBeforeZero? window 0 window.size with
    | none => throw (.invalidString offset.toNat)
    | some length =>
      let name ← slice window 0 length
      match String.fromUTF8? name with
      | none => throw (.invalidString offset.toNat)
      | some name => return name
  else throw (.invalidString offset.toNat)

/-- Whether there is a zero byte does not depend on what is around the window. -/
theorem lengthBeforeZero?_extract {file : ByteArray} {start stop offset limit : Nat}
    (hinside : start + offset + limit ≤ stop) :
    lengthBeforeZero? (file.extract start stop) offset limit =
      lengthBeforeZero? file (start + offset) limit := by
  induction limit generalizing offset with
  | zero => rfl
  | succ limit ih =>
    have hbyte : Bytes.byteAt (file.extract start stop) offset =
        Bytes.byteAt file (start + offset) := by
      rw [Bytes.byteAt_extract, if_pos (by omega)]
    rw [lengthBeforeZero?, lengthBeforeZero?, ih (by omega), hbyte, Nat.add_assoc]

theorem lt_of_lengthBeforeZero? {bytes : ByteArray} {start limit length : Nat}
    (h : lengthBeforeZero? bytes start limit = some length) : length < limit := by
  induction limit generalizing start length with
  | zero => cases h
  | succ limit ih =>
    rw [lengthBeforeZero?] at h
    split at h
    · obtain rfl := Option.some.inj h
      exact Nat.succ_pos limit
    · obtain ⟨before, hbefore, rfl⟩ := Option.map_eq_some_iff.1 h
      exact Nat.succ_lt_succ (ih hbefore)

section Read

variable {α : Type} [CheckedRecord α] (file : ByteArray)

theorem readRecord_eq (offset : Nat) :
    readRecord α file offset = lift (Elf.readRecord α file offset) := by
  unfold readRecord Elf.readRecord
  split
  · next hfile => exact CheckedRecord.decodeRaw_eq file offset hfile
  · rfl

theorem readTable_eq (offset size : Nat) :
    readTable α file offset size = lift (Elf.readTable α file offset size) := by
  unfold readTable Elf.readTable
  by_cases hfile : offset + size ≤ file.size
  · rw [if_pos hfile, slice_eq (by omega) hfile, pure_bind, size_extract hfile]
    by_cases haligned : size % Record.size α = 0
    · rw [if_pos haligned, if_pos ⟨hfile, haligned⟩]
      have hrecords : ((List.range (size / Record.size α)).mapM fun i =>
            let start := Record.size α * i
            CheckedRecord.decodeRaw
              ((file.extract offset (offset + size)).extract start (start + Record.size α))) =
          pure ((List.range (size / Record.size α)).map fun i =>
            (Record.decode file (offset + Record.size α * i) : α)) := by
        apply mapM_eq
        intro i hi
        have hlast := Nat.mul_le_mul_left (Record.size α) (Nat.succ_le_of_lt (List.mem_range.1 hi))
        have hsize := Nat.mul_div_le size (Record.size α)
        rw [Nat.mul_succ] at hlast
        dsimp only
        rw [extract_extract file offset (by omega)]
        exact CheckedRecord.decodeRaw_eq file _ (by omega)
      rw [hrecords, pure_bind]
      refine congrArg pure (Array.ext ?_ fun i _ _ => ?_) <;> simp
    · rw [if_neg haligned, if_neg fun h => haligned h.2]
      rfl
  · rw [if_neg hfile, if_neg fun h => hfile h.1]
    rfl

/-- A table of a file is no larger than the file. -/
theorem size_of_readTable {offset size : Nat} {records : Array α}
    (h : Elf.readTable α file offset size = .ok records) :
    records.size = size / Record.size α ∧ offset + size ≤ file.size := by
  unfold Elf.readTable at h
  split at h
  · next hinside =>
    obtain rfl := Except.ok.inj h
    exact ⟨Array.size_ofFn, hinside.1⟩
  · cases h

theorem readString_eq (table : SectionHeader) (offset : UInt32) (limit : Nat) :
    readString file table offset limit = lift (Elf.readString file table offset limit) := by
  unfold readString Elf.readString
  dsimp only
  split
  · next hinside =>
    obtain ⟨_, hoffset, _, hfile⟩ := hinside
    have hrange : table.offset.toNat + offset.toNat ≤
        min table.stop (table.offset.toNat + offset.toNat + limit) := by
      rw [SectionHeader.stop]
      omega
    generalize table.offset.toNat + offset.toNat = start at hfile hrange ⊢
    generalize min table.stop (start + limit) = stop at hfile hrange ⊢
    obtain ⟨size, rfl⟩ := Nat.exists_eq_add_of_le hrange
    have hsize := size_extract hfile
    rw [hsize, lengthBeforeZero?_extract (by omega), Nat.add_sub_cancel_left]
    cases hlength : lengthBeforeZero? file start size with
    | none => rfl
    | some length =>
      have hlt := lt_of_lengthBeforeZero? hlength
      have hname := @extract_extract file start size 0 length (by omega)
      rw [Nat.zero_add, Nat.add_zero] at hname
      dsimp only [Option.bind]
      rw [slice_eq (Nat.zero_le _) (by omega), pure_bind, hname]
      cases String.fromUTF8? (file.extract start (start + length)) <;> rfl
  · rfl

end Read

end Checked

end SbfMachine
