import SbfMachine.Elf.Record
import SbfMachine.Proofs.Bytes.Parts

/-!
# Records are read back

The bytes of a record stand for it: from any file that holds them, the record is read back. So are
the records of a table, whose bytes are those of its records, one record after the other.

## Main definitions

- `Record.encode` — the bytes of a record
- `Record.Faithful` — the record is read back from its bytes

## Main statements

- `FileHeader.faithful`, `ProgramHeader.faithful` and so on — all kinds of records are faithful
- `readTable_of_holds` — a table is read back
-/

namespace SbfMachine.Elf

open Bytes (Holds encodeLE)

-- ════════════════════════════════════════════════════════════════════════
-- Fields
-- ════════════════════════════════════════════════════════════════════════

section Fields

variable {file : ByteArray} {offset : Nat}

theorem u8At_of_holds {value : UInt8} (h : Holds file offset (encodeLE value.toUInt64 1)) :
    u8At file offset = value := by
  have hnumber := h.toNat_readLE (by decide)
  have hbyte : Bytes.readLE file offset 1 = (Bytes.byteAt file offset).toUInt64 := by
    simp [Bytes.readLE]
  have hlt := value.toNat_lt
  rw [hbyte, UInt8.toNat_toUInt64, UInt8.toNat_toUInt64] at hnumber
  rw [u8At, ← UInt8.toNat_inj, hnumber]
  omega

theorem u16At_of_holds {value : UInt16} (h : Holds file offset (encodeLE value.toUInt64 2)) :
    u16At file offset = value := by
  have hlt := value.toNat_lt
  rw [u16At, ← UInt16.toNat_inj, UInt64.toNat_toUInt16, h.toNat_readLE (by decide),
    UInt16.toNat_toUInt64]
  omega

theorem u32At_of_holds {value : UInt32} (h : Holds file offset (encodeLE value.toUInt64 4)) :
    u32At file offset = value := by
  have hlt := value.toNat_lt
  rw [u32At, ← UInt32.toNat_inj, UInt64.toNat_toUInt32, h.toNat_readLE (by decide),
    UInt32.toNat_toUInt64]
  omega

theorem u64At_of_holds {value : UInt64} (h : Holds file offset (encodeLE value 8)) :
    u64At file offset = value := by
  have hlt := value.toNat_lt
  rw [u64At, ← UInt64.toNat_inj, h.toNat_readLE (by decide)]
  omega

end Fields

-- ════════════════════════════════════════════════════════════════════════
-- Records
-- ════════════════════════════════════════════════════════════════════════

namespace Record

variable {α : Type} [Record α]

/-- The bytes of a record. -/
def encode (record : α) : ByteArray :=
  append ByteArray.empty record

/-- The record is read back from its bytes, wherever they stand. -/
structure Faithful (record : α) : Prop where
  append_eq : ∀ bytes, append bytes record = bytes ++ encode record
  size_encode : (encode record).size = size α
  decode_of_holds : ∀ file offset, Holds file offset (encode record) → decode file offset = record

end Record

-- The fields of a record stand one behind the other, and each of them is read back.

theorem FileHeader.faithful {header : FileHeader} (hident : header.ident.size = 16) :
    Record.Faithful header where
  append_eq bytes := by
    simp only [Record.encode, Record.append, pushU16, pushU32, pushU64, Bytes.pushLE_eq_append,
      ByteArray.empty_append, ByteArray.append_assoc]
  size_encode := by
    simp only [Record.encode, Record.append, pushU16, pushU32, pushU64, Bytes.size_pushLE,
      ByteArray.empty_append, hident]
    rfl
  decode_of_holds file offset h := by
    simp only [Record.encode, Record.append, pushU16, pushU32, pushU64, Bytes.pushLE_eq_append,
      ByteArray.empty_append, Bytes.holds_append_iff, ByteArray.size_append, Bytes.size_encodeLE,
      hident, Nat.reduceAdd] at h
    obtain ⟨⟨⟨⟨⟨⟨⟨⟨⟨⟨⟨⟨⟨hbytes, hkind⟩, hmachine⟩, hversion⟩, hentry⟩, hphoff⟩, hshoff⟩, hflags⟩,
      hehsize⟩, hphentsize⟩, hphnum⟩, hshentsize⟩, hshnum⟩, hshstrndx⟩ := h
    have hfirst := hbytes.extract
    rw [hident] at hfirst
    simp only [Record.decode, hfirst, u16At_of_holds hkind, u16At_of_holds hmachine,
      u32At_of_holds hversion, u64At_of_holds hentry, u64At_of_holds hphoff, u64At_of_holds hshoff,
      u32At_of_holds hflags, u16At_of_holds hehsize, u16At_of_holds hphentsize,
      u16At_of_holds hphnum, u16At_of_holds hshentsize, u16At_of_holds hshnum,
      u16At_of_holds hshstrndx]

theorem ProgramHeader.faithful (header : ProgramHeader) : Record.Faithful header where
  append_eq bytes := by
    simp only [Record.encode, Record.append, pushU32, pushU64, Bytes.pushLE_eq_append,
      ByteArray.empty_append, ByteArray.append_assoc]
  size_encode := by
    simp only [Record.encode, Record.append, pushU32, pushU64, Bytes.size_pushLE]
    rfl
  decode_of_holds file offset h := by
    simp only [Record.encode, Record.append, pushU32, pushU64, Bytes.pushLE_eq_append,
      ByteArray.empty_append, Bytes.holds_append_iff, ByteArray.size_append, Bytes.size_encodeLE,
      Nat.reduceAdd] at h
    obtain ⟨⟨⟨⟨⟨⟨⟨hkind, hflags⟩, hoffset⟩, hvaddr⟩, hpaddr⟩, hfilesz⟩, hmemsz⟩, halign⟩ := h
    simp only [Record.decode, u32At_of_holds hkind, u32At_of_holds hflags, u64At_of_holds hoffset,
      u64At_of_holds hvaddr, u64At_of_holds hpaddr, u64At_of_holds hfilesz, u64At_of_holds hmemsz,
      u64At_of_holds halign]

theorem SectionHeader.faithful (header : SectionHeader) : Record.Faithful header where
  append_eq bytes := by
    simp only [Record.encode, Record.append, pushU32, pushU64, Bytes.pushLE_eq_append,
      ByteArray.empty_append, ByteArray.append_assoc]
  size_encode := by
    simp only [Record.encode, Record.append, pushU32, pushU64, Bytes.size_pushLE]
    rfl
  decode_of_holds file offset h := by
    simp only [Record.encode, Record.append, pushU32, pushU64, Bytes.pushLE_eq_append,
      ByteArray.empty_append, Bytes.holds_append_iff, ByteArray.size_append, Bytes.size_encodeLE,
      Nat.reduceAdd] at h
    obtain ⟨⟨⟨⟨⟨⟨⟨⟨⟨hname, hkind⟩, hflags⟩, haddr⟩, hoffset⟩, hsize⟩, hlink⟩, hinfo⟩, haddralign⟩,
      hentsize⟩ := h
    simp only [Record.decode, u32At_of_holds hname, u32At_of_holds hkind, u64At_of_holds hflags,
      u64At_of_holds haddr, u64At_of_holds hoffset, u64At_of_holds hsize, u32At_of_holds hlink,
      u32At_of_holds hinfo, u64At_of_holds haddralign, u64At_of_holds hentsize]

theorem DynamicEntry.faithful (entry : DynamicEntry) : Record.Faithful entry where
  append_eq bytes := by
    simp only [Record.encode, Record.append, pushU64, Bytes.pushLE_eq_append,
      ByteArray.empty_append, ByteArray.append_assoc]
  size_encode := by
    simp only [Record.encode, Record.append, pushU64, Bytes.size_pushLE]
    rfl
  decode_of_holds file offset h := by
    simp only [Record.encode, Record.append, pushU64, Bytes.pushLE_eq_append,
      ByteArray.empty_append, Bytes.holds_append_iff, Bytes.size_encodeLE] at h
    obtain ⟨htag, hvalue⟩ := h
    simp only [Record.decode, u64At_of_holds htag, u64At_of_holds hvalue]

theorem Relocation.faithful (relocation : Relocation) : Record.Faithful relocation where
  append_eq bytes := by
    simp only [Record.encode, Record.append, pushU64, Bytes.pushLE_eq_append,
      ByteArray.empty_append, ByteArray.append_assoc]
  size_encode := by
    simp only [Record.encode, Record.append, pushU64, Bytes.size_pushLE]
    rfl
  decode_of_holds file offset h := by
    simp only [Record.encode, Record.append, pushU64, Bytes.pushLE_eq_append,
      ByteArray.empty_append, Bytes.holds_append_iff, Bytes.size_encodeLE] at h
    obtain ⟨hoffset, hinfo⟩ := h
    simp only [Record.decode, u64At_of_holds hoffset, u64At_of_holds hinfo]

theorem Symbol.faithful (symbol : Symbol) : Record.Faithful symbol where
  append_eq bytes := by
    simp only [Record.encode, Record.append, pushU8, pushU16, pushU32, pushU64,
      Bytes.pushLE_eq_append, Bytes.push_eq_append, ByteArray.empty_append, ByteArray.append_assoc]
  size_encode := by
    simp only [Record.encode, Record.append, pushU8, pushU16, pushU32, pushU64, Bytes.size_pushLE,
      ByteArray.size_push]
    rfl
  decode_of_holds file offset h := by
    simp only [Record.encode, Record.append, pushU8, pushU16, pushU32, pushU64,
      Bytes.pushLE_eq_append, Bytes.push_eq_append, ByteArray.empty_append,
      Bytes.holds_append_iff, ByteArray.size_append, Bytes.size_encodeLE, Nat.reduceAdd] at h
    obtain ⟨⟨⟨⟨⟨hname, hinfo⟩, hother⟩, hshndx⟩, hvalue⟩, hsize⟩ := h
    simp only [Record.decode, u32At_of_holds hname, u8At_of_holds hinfo, u8At_of_holds hother,
      u16At_of_holds hshndx, u64At_of_holds hvalue, u64At_of_holds hsize]

-- ════════════════════════════════════════════════════════════════════════
-- Tables
-- ════════════════════════════════════════════════════════════════════════

section Tables

variable {α : Type} [Record α] {records : List α} {file : ByteArray} {offset : Nat}

theorem foldl_append_eq (hfaithful : ∀ record ∈ records, Record.Faithful record)
    (bytes : ByteArray) : records.foldl Record.append bytes = bytes ++ encodeTable records := by
  induction records generalizing bytes with
  | nil => exact ByteArray.append_empty.symm
  | cons record records ih =>
    have hrest := ih fun later hlater => hfaithful later (List.mem_cons_of_mem record hlater)
    rw [encodeTable, List.foldl_cons, List.foldl_cons, hrest, hrest,
      (hfaithful record List.mem_cons_self).append_eq bytes, ByteArray.append_assoc]
    rfl

/-- A table is its first record and the table of the others. -/
theorem encodeTable_cons {record : α}
    (hfaithful : ∀ later ∈ record :: records, Record.Faithful later) :
    encodeTable (record :: records) = Record.encode record ++ encodeTable records :=
  foldl_append_eq (fun later hlater => hfaithful later (List.mem_cons_of_mem record hlater)) _

theorem size_encodeTable (hfaithful : ∀ record ∈ records, Record.Faithful record) :
    (encodeTable records).size = Record.size α * records.length := by
  induction records with
  | nil => rfl
  | cons record records ih =>
    rw [encodeTable_cons hfaithful, ByteArray.size_append,
      (hfaithful record List.mem_cons_self).size_encode,
      ih fun later hlater => hfaithful later (List.mem_cons_of_mem record hlater),
      List.length_cons, Nat.mul_succ, Nat.add_comm]

/-- From a file that holds a table, each of its records is read back. -/
theorem decode_of_holds_table (hfaithful : ∀ record ∈ records, Record.Faithful record)
    (h : Holds file offset (encodeTable records)) (i : Nat) (hi : i < records.length) :
    Record.decode file (offset + Record.size α * i) = records[i] := by
  induction records generalizing offset i with
  | nil => exact absurd hi (Nat.not_lt_zero i)
  | cons record records ih =>
    have hfirst := hfaithful record List.mem_cons_self
    rw [encodeTable_cons hfaithful, Bytes.holds_append_iff, hfirst.size_encode] at h
    cases i with
    | zero => exact hfirst.decode_of_holds file offset h.1
    | succ i =>
      have hrest := ih (fun later hlater => hfaithful later (List.mem_cons_of_mem record hlater))
        h.2 i (Nat.lt_of_succ_lt_succ hi)
      rw [Nat.mul_succ, Nat.add_comm (Record.size α * i), ← Nat.add_assoc]
      exact hrest

/-- A table is read back from a file that holds it. -/
theorem readTable_of_holds (hsize : 0 < Record.size α)
    (hfaithful : ∀ record ∈ records, Record.Faithful record)
    (h : Holds file offset (encodeTable records)) :
    readTable α file offset (encodeTable records).size = .ok records.toArray := by
  have htotal := size_encodeTable hfaithful
  have hinside := h.inside
  rw [readTable, if_pos ⟨hinside, by rw [htotal, Nat.mul_mod_right]⟩]
  refine congrArg Except.ok (Array.ext ?_ fun i hi _ => ?_)
  · rw [Array.size_ofFn, htotal, Nat.mul_div_cancel_left _ hsize, List.size_toArray]
  · rw [Array.size_ofFn, htotal, Nat.mul_div_cancel_left _ hsize] at hi
    rw [Array.getElem_ofFn, List.getElem_toArray]
    exact decode_of_holds_table hfaithful h i hi

/-- A single record is read back from a file that holds it. -/
theorem readRecord_of_holds {record : α} (hfaithful : Record.Faithful record)
    (h : Holds file offset (encodeTable [record])) : readRecord α file offset = .ok record := by
  have htable : encodeTable [record] = Record.encode record := rfl
  rw [htable] at h
  have hinside := h.inside
  rw [hfaithful.size_encode] at hinside
  rw [readRecord, if_pos hinside, hfaithful.decode_of_holds file offset h]

end Tables

end SbfMachine.Elf
