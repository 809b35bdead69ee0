import SbfMachine.Elf.Record
import SbfMachine.Proofs.Bytes.Parts

/-!
# Names are read back

A string table that holds a name with a zero byte behind it gives the name back, if there is no
zero byte in the name itself and the name is shorter than the limit. Nothing else is read: the zero
byte is looked for up to the end of the table and up to the limit, whichever comes first, and what
stands before it has to be UTF-8.

## Main definitions

- `NulFree` — no byte of a name is zero
- `terminated` — the bytes of a name and a zero byte
- `Searchable` — the checks that are made before the zero byte is looked for
- `StringAt` — a name stands at an offset of a string table

## Main statements

- `readString_of_holds` — a name is read back from a table that holds it
- `exactStrings` — a string is read iff it stands in the table
-/

namespace SbfMachine.Elf

open Bytes (Holds byteAt)

/-- No byte of the name is zero. -/
def NulFree (name : String) : Prop :=
  ∀ i, i < name.utf8ByteSize → byteAt name.toUTF8 i ≠ 0

instance (name : String) : Decidable (NulFree name) :=
  inferInstanceAs (Decidable (∀ i, i < name.utf8ByteSize → byteAt name.toUTF8 i ≠ 0))

/-- The bytes of a name and the zero byte that ends it. -/
def terminated (name : String) : ByteArray :=
  name.toUTF8.push 0

theorem size_terminated (name : String) : (terminated name).size = name.utf8ByteSize + 1 := by
  rw [terminated, ByteArray.size_push]
  rfl

/-- The length of a string is the number of bytes before the first zero byte. -/
theorem lengthBeforeZero?_eq {bytes : ByteArray} {start length limit : Nat}
    (hbefore : ∀ i, i < length → byteAt bytes (start + i) ≠ 0)
    (hzero : byteAt bytes (start + length) = 0) (hlimit : length < limit) :
    lengthBeforeZero? bytes start limit = some length := by
  induction length generalizing start limit with
  | zero =>
    obtain ⟨rest, rfl⟩ := Nat.exists_eq_succ_of_ne_zero (Nat.ne_of_gt hlimit)
    have hfirst : byteAt bytes start = 0 := hzero
    rw [lengthBeforeZero?, if_pos hfirst]
  | succ length ih =>
    obtain ⟨rest, rfl⟩ := Nat.exists_eq_succ_of_ne_zero (Nat.ne_of_gt (Nat.zero_lt_of_lt hlimit))
    have hrest : lengthBeforeZero? bytes (start + 1) rest = some length := by
      refine ih (fun i hi => ?_) ?_ (Nat.lt_of_succ_lt_succ hlimit)
      · rw [Nat.add_assoc, Nat.add_comm 1]
        exact hbefore (i + 1) (Nat.succ_lt_succ hi)
      · rw [Nat.add_assoc, Nat.add_comm 1]
        exact hzero
    have hfirst : byteAt bytes start ≠ 0 := hbefore 0 (Nat.succ_pos length)
    rw [lengthBeforeZero?, if_neg hfirst, hrest, Option.map_some]

/-- A length is found iff it is that of the part before the first zero byte, and below the
limit. -/
theorem lengthBeforeZero?_eq_some_iff {bytes : ByteArray} {start limit length : Nat} :
    lengthBeforeZero? bytes start limit = some length ↔
      length < limit ∧ byteAt bytes (start + length) = 0 ∧
        ∀ i, i < length → byteAt bytes (start + i) ≠ 0 := by
  refine ⟨fun h => ?_, fun ⟨hlimit, hzero, hbefore⟩ => lengthBeforeZero?_eq hbefore hzero hlimit⟩
  induction limit generalizing start length with
  | zero => cases h
  | succ limit ih =>
    rw [lengthBeforeZero?] at h
    split at h
    · next hfirst =>
      obtain rfl := Option.some.inj h
      exact ⟨Nat.succ_pos limit, hfirst, fun i hi => absurd hi (Nat.not_lt_zero i)⟩
    · next hfirst =>
      obtain ⟨rest, hrest, rfl⟩ := Option.map_eq_some_iff.1 h
      obtain ⟨hlimit, hzero, hbefore⟩ := ih hrest
      refine ⟨Nat.succ_lt_succ hlimit, ?_, fun i hi => ?_⟩
      · rwa [Nat.add_comm rest, ← Nat.add_assoc]
      · cases i with
        | zero => exact hfirst
        | succ i =>
          rw [Nat.add_comm i, ← Nat.add_assoc]
          exact hbefore i (Nat.lt_of_succ_lt_succ hi)

theorem fromUTF8?_toUTF8 (name : String) : String.fromUTF8? name.toUTF8 = some name := by
  rw [String.fromUTF8?, String.toUTF8_eq_toByteArray, dif_pos name.isValidUTF8]
  rfl

/-- Bytes are read as the text that they are the encoding of. -/
theorem fromUTF8?_eq_some_iff {bytes : ByteArray} {name : String} :
    String.fromUTF8? bytes = some name ↔ name.toUTF8 = bytes := by
  constructor
  · intro h
    unfold String.fromUTF8? at h
    split at h
    · obtain rfl := Option.some.inj h
      rfl
    · cases h
  · rintro rfl
    exact fromUTF8?_toUTF8 name

section Reading

variable {file table : ByteArray} {start : Nat} {name : String}

/-- Where a name stands with a zero byte behind it, the first zero byte is that one. -/
theorem lengthBeforeZero?_of_holds (h : Holds file start (terminated name)) (hnul : NulFree name)
    {limit : Nat} (hlimit : name.utf8ByteSize < limit) :
    lengthBeforeZero? file start limit = some name.utf8ByteSize := by
  have hsize : name.toUTF8.size = name.utf8ByteSize := rfl
  refine lengthBeforeZero?_eq (fun i hi => ?_) ?_ hlimit
  · rw [h.byteAt i (by rw [size_terminated]; omega), terminated, Bytes.byteAt_push,
      if_neg (by omega)]
    exact hnul i hi
  · rw [h.byteAt name.utf8ByteSize (by rw [size_terminated]; omega), terminated,
      Bytes.byteAt_push, if_pos hsize.symm]

theorem extract_of_holds (h : Holds file start (terminated name)) :
    file.extract start (start + name.utf8ByteSize) = name.toUTF8 := by
  rw [terminated, Bytes.push_eq_append, Bytes.holds_append_iff] at h
  exact h.1.extract

/-- A name is read back from a string table that holds it. -/
theorem readString_of_holds {header : SectionHeader} {offset : UInt32} {limit : Nat}
    (hkind : header.kind = stringTableKind) (hsize : header.size.toNat = table.size)
    (hfile : file.size < UInt64.size) (htable : Holds file header.offset.toNat table)
    (hname : Holds table offset.toNat (terminated name)) (hnul : NulFree name)
    (hlimit : name.utf8ByteSize < limit) : readString file header offset limit = .ok name := by
  have hinside := htable.inside
  have hplace := hname.inside
  have hheld := htable.trans hname
  rw [size_terminated] at hplace
  have hstop : header.stop = header.offset.toNat + table.size := by
    rw [SectionHeader.stop, hsize]
  have hlength : lengthBeforeZero? file (header.offset.toNat + offset.toNat)
      (min header.stop (header.offset.toNat + offset.toNat + limit) -
        (header.offset.toNat + offset.toNat)) = some name.utf8ByteSize :=
    lengthBeforeZero?_of_holds hheld hnul (by omega)
  unfold readString
  dsimp only
  rw [if_pos ⟨hkind, by omega, by omega, by omega⟩, hlength, Option.bind_some,
    extract_of_holds hheld, fromUTF8?_toUTF8]

/-- A name that stands before the first zero byte stands there with its zero byte. -/
theorem holds_terminated {start : Nat} (hinside : start + name.utf8ByteSize < file.size)
    (hname : name.toUTF8 = file.extract start (start + name.utf8ByteSize))
    (hzero : byteAt file (start + name.utf8ByteSize) = 0) :
    Holds file start (terminated name) where
  inside := by
    rw [size_terminated]
    omega
  byteAt i hi := by
    have hsize : name.toUTF8.size = name.utf8ByteSize := rfl
    rw [size_terminated] at hi
    rw [terminated, Bytes.byteAt_push, hsize]
    by_cases hlast : i = name.utf8ByteSize
    · rw [if_pos hlast, hlast, hzero]
    · rw [if_neg hlast, hname, Bytes.byteAt_extract, if_pos (by omega)]

end Reading

-- ════════════════════════════════════════════════════════════════════════
-- What is read
-- ════════════════════════════════════════════════════════════════════════

/-- Where the string at an offset of a table begins in the file. -/
def stringStart (table : SectionHeader) (offset : UInt32) : Nat :=
  table.offset.toNat + offset.toNat

/-- Where the search for its zero byte stops: at the end of the table, or at the limit. -/
def stringStop (table : SectionHeader) (offset : UInt32) (limit : Nat) : Nat :=
  min table.stop (stringStart table offset + limit)

/-- The checks before the search: the table is a string table and ends inside the address space,
the string begins in the table, and the search stays inside the file. -/
structure Searchable (file : ByteArray) (table : SectionHeader) (offset : UInt32) (limit : Nat) :
    Prop where
  kind : table.kind = stringTableKind
  offset_lt : offset.toNat < table.size.toNat
  stop_lt : table.stop < UInt64.size
  inside : stringStop table offset limit ≤ file.size

/-- The name stands at an offset of a string table, and the window that is searched begins with it
and a zero byte. -/
structure StringAt (file : ByteArray) (table : SectionHeader) (offset : UInt32) (limit : Nat)
    (name : String) : Prop extends Searchable file table offset limit where
  nulFree : NulFree name
  held : Holds (file.extract (stringStart table offset) (stringStop table offset limit)) 0
    (terminated name)

section Search

variable {file : ByteArray} {table : SectionHeader} {offset : UInt32} {limit : Nat} {name : String}

theorem Searchable.start_le_stop (h : Searchable file table offset limit) :
    stringStart table offset ≤ stringStop table offset limit := by
  have hoffset := h.offset_lt
  unfold stringStop stringStart SectionHeader.stop
  omega

/-- In terms of the file: the name stands there with its zero byte, and the search gets as far as
that. -/
theorem stringAt_iff :
    StringAt file table offset limit name ↔
      Searchable file table offset limit ∧ NulFree name ∧
        Holds file (stringStart table offset) (terminated name) ∧
          stringStart table offset + name.utf8ByteSize < stringStop table offset limit := by
  constructor
  · rintro ⟨hsearch, hnul, hheld⟩
    obtain ⟨hwindow, hheld⟩ :=
      (Bytes.holds_extract_iff hsearch.start_le_stop hsearch.inside).1 hheld
    rw [size_terminated] at hwindow
    exact ⟨hsearch, hnul, hheld, by omega⟩
  · rintro ⟨hsearch, hnul, hheld, hwindow⟩
    refine ⟨hsearch, hnul, ?_⟩
    refine (Bytes.holds_extract_iff hsearch.start_le_stop hsearch.inside).2 ⟨?_, hheld⟩
    rw [size_terminated]
    omega

/-- What stands before the first zero byte of a window is a name iff the window begins with the
name and a zero byte. -/
theorem nameBeforeZero_eq_some_iff {start stop : Nat} (hstart : start ≤ stop)
    (hstop : stop ≤ file.size) :
    ((lengthBeforeZero? file start (stop - start)).bind fun length =>
        String.fromUTF8? (file.extract start (start + length))) = some name ↔
      NulFree name ∧ Holds file start (terminated name) ∧ start + name.utf8ByteSize < stop := by
  constructor
  · intro h
    obtain ⟨length, hlength, hname⟩ := Option.bind_eq_some_iff.1 h
    obtain ⟨hlimit, hzero, hbefore⟩ := lengthBeforeZero?_eq_some_iff.1 hlength
    rw [fromUTF8?_eq_some_iff] at hname
    obtain rfl : name.utf8ByteSize = length := by
      have hsize : name.utf8ByteSize = _ := congrArg ByteArray.size hname
      rw [ByteArray.size_extract] at hsize
      omega
    refine ⟨fun i hi => ?_, holds_terminated (by omega) hname hzero, by omega⟩
    rw [hname, Bytes.byteAt_extract, if_pos (by omega)]
    exact hbefore i hi
  · rintro ⟨hnul, hheld, hinside⟩
    rw [lengthBeforeZero?_of_holds hheld hnul (by omega), Option.bind_some, extract_of_holds hheld,
      fromUTF8?_toUTF8]

theorem readString_of_not_searchable (h : ¬Searchable file table offset limit) :
    readString file table offset limit = .error (.invalidString offset.toNat) := by
  unfold readString
  dsimp only
  rw [if_neg]
  rintro ⟨hkind, hoffset, hstop, hinside⟩
  exact h ⟨hkind, hoffset, hstop, hinside⟩

theorem readString_of_searchable (h : Searchable file table offset limit) :
    readString file table offset limit =
      match (lengthBeforeZero? file (stringStart table offset)
          (stringStop table offset limit - stringStart table offset)).bind fun length =>
            String.fromUTF8?
              (file.extract (stringStart table offset) (stringStart table offset + length)) with
      | some name => .ok name
      | none => .error (.invalidString offset.toNat) :=
  if_pos ⟨h.kind, h.offset_lt, h.stop_lt, h.inside⟩

/-- What is read is what stands in the table. -/
theorem readString_eq_ok_iff :
    readString file table offset limit = .ok name ↔ StringAt file table offset limit name := by
  rw [stringAt_iff]
  by_cases hsearch : Searchable file table offset limit
  · rw [and_iff_right hsearch,
      ← nameBeforeZero_eq_some_iff hsearch.start_le_stop hsearch.inside,
      readString_of_searchable hsearch]
    split
    · next found hfound => rw [hfound, Except.ok.injEq, Option.some.injEq]
    · next hnone => rw [hnone]; simp only [reduceCtorEq]
  · rw [readString_of_not_searchable hsearch]
    simp only [hsearch, false_and, reduceCtorEq]

/-- The only reason to fail is the offset. -/
theorem readString_eq_error (h : ∀ name, readString file table offset limit ≠ .ok name) :
    readString file table offset limit = .error (.invalidString offset.toNat) := by
  by_cases hsearch : Searchable file table offset limit
  · rw [readString_of_searchable hsearch] at h ⊢
    split
    · next found hfound =>
      rw [hfound] at h
      exact absurd rfl (h found)
    · rfl
  · exact readString_of_not_searchable hsearch

theorem StringAt.unique {other : String} (h : StringAt file table offset limit name)
    (hother : StringAt file table offset limit other) : name = other :=
  Except.ok.inj ((readString_eq_ok_iff.2 h).symm.trans (readString_eq_ok_iff.2 hother))

end Search

/-- Reading a string is exact: the strings that stand in the table are read, there is at most one
at every offset, and where there is none the offset is refused. -/
structure ExactStrings (file : ByteArray) (table : SectionHeader) (offset : UInt32) (limit : Nat) :
    Prop where
  ok_iff : ∀ name,
    readString file table offset limit = .ok name ↔ StringAt file table offset limit name
  error : (∀ name, ¬StringAt file table offset limit name) →
    readString file table offset limit = .error (.invalidString offset.toNat)
  length_lt : ∀ name, StringAt file table offset limit name → name.utf8ByteSize < limit
  /-- The zero byte behind the string is a byte of the table. -/
  zero_inside : ∀ name, StringAt file table offset limit name →
    offset.toNat + name.utf8ByteSize < table.size.toNat
  unique : ∀ name other, StringAt file table offset limit name →
    StringAt file table offset limit other → name = other

theorem exactStrings (file : ByteArray) (table : SectionHeader) (offset : UInt32) (limit : Nat) :
    ExactStrings file table offset limit := by
  have hstop (name : String) (h : StringAt file table offset limit name) :
      name.utf8ByteSize < limit ∧ offset.toNat + name.utf8ByteSize < table.size.toNat := by
    obtain ⟨_, _, _, hinside⟩ := stringAt_iff.1 h
    unfold stringStop stringStart SectionHeader.stop at hinside
    omega
  exact
    { ok_iff := fun name => readString_eq_ok_iff
      error := fun hnone => readString_eq_error fun name hname =>
        hnone name (readString_eq_ok_iff.1 hname)
      length_lt := fun name h => (hstop name h).1
      zero_inside := fun name h => (hstop name h).2
      unique := fun _ _ => StringAt.unique }

/-- A byte and a string table with the names `""` and `".text"`. -/
def tableFile : ByteArray :=
  ⟨#[0xff, 0, 0x2e, 0x74, 0x65, 0x78, 0x74, 0]⟩

/-- The header of a string table that begins behind the first byte of the file. -/
def tableHeader (size : UInt64) : SectionHeader where
  name := 0
  kind := stringTableKind
  flags := 0
  addr := 0
  offset := 1
  size
  link := 0
  info := 0
  addralign := 1
  entsize := 0

/-- The name is read if the limit and the table leave room for the zero byte behind it, and not if
one of them is smaller by one. -/
theorem exactStrings_tableFile :
    StringAt tableFile (tableHeader 7) 1 6 ".text" ∧
      readString tableFile (tableHeader 7) 1 6 = .ok ".text" ∧
      (∀ name, ¬StringAt tableFile (tableHeader 7) 1 5 name) ∧
      ∀ name, ¬StringAt tableFile (tableHeader 6) 1 6 name := by
  have hread : readString tableFile (tableHeader 7) 1 6 = .ok ".text" := by decide +kernel
  have hnone (size : UInt64) (limit : Nat)
      (herror : readString tableFile (tableHeader size) 1 limit = .error (.invalidString 1))
      (name : String) : ¬StringAt tableFile (tableHeader size) 1 limit name := by
    rw [← (exactStrings _ _ _ _).ok_iff, herror]
    exact nofun
  exact ⟨((exactStrings _ _ _ _).ok_iff _).1 hread, hread, hnone 7 5 (by decide +kernel),
    hnone 6 6 (by decide +kernel)⟩

end SbfMachine.Elf
