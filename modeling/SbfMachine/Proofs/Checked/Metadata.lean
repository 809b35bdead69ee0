import SbfMachine.Proofs.Checked.Records
import SbfMachine.Proofs.Elf.Acceptance

/-!
# Checked reading of shared objects

The metadata of a file is read with operations that may trap, and does not trap: the header tables
have sizes that are words, the section with the section names is one of the table, and the segment
that covers an address does not begin behind it.

## Main definitions

- `Checked.checkHeader`, `Checked.readProgramHeaders`, `Checked.readSections` — headers
- `Checked.readDynamic`, `Checked.readRelocations`, `Checked.readSymbols` — the dynamic table and
  what it points to
- `Checked.readObject` — all metadata of a file

## Main statements

- `Checked.readObject_eq` — reading the metadata of a file does not trap
-/

namespace SbfMachine

open Elf

namespace Checked

-- ════════════════════════════════════════════════════════════════════════
-- The file header
-- ════════════════════════════════════════════════════════════════════════

/-- The first sixteen bytes of a file, checked byte by byte. -/
def checkIdent (header : FileHeader) : Checked Unit := do
  let magic ← slice header.ident 0 4
  let byte := Bytes.byteAt magic
  if byte 0 ≠ 0x7f ∨ byte 1 ≠ 0x45 ∨ byte 2 ≠ 0x4c ∨ byte 3 ≠ 0x46 then
    throw (.invalidHeader .notElf)
  else if (← index header.ident 4) ≠ 2 then throw (.incompatible .not64Bit)
  else if (← index header.ident 5) ≠ 1 then throw (.incompatible .notLittleEndian)
  else if (← index header.ident 6) ≠ 1 then throw (.incompatible .elfVersion)
  else if (← index header.ident 7) ≠ 0 then throw (.incompatible .osAbi)
  else return ()

def programTableSize (header : FileHeader) : Checked Nat :=
  mul header.phnum.toNat (Record.size ProgramHeader)

def sectionTableSize (header : FileHeader) : Checked Nat :=
  mul header.shnum.toNat (Record.size SectionHeader)

def checkTables (header : FileHeader) : Checked Unit :=
  if header.programTable < fileHeaderSize ∨ header.sectionTable < fileHeaderSize then
    throw .overlappingTables
  else do
    let programSize ← programTableSize header
    let sectionSize ← sectionTableSize header
    if overlaps header.programTable programSize header.sectionTable sectionSize then
      throw .overlappingTables
    else return ()

def checkHeader (header : FileHeader) : Checked Unit := do
  checkIdent header
  lift header.checkFields
  checkTables header

theorem programTableSize_eq (header : FileHeader) :
    programTableSize header = pure header.programTableSize := by
  have hcount := header.phnum.toNat_lt
  apply mul_eq
  simp only [Record.size, UInt64.size]
  omega

theorem sectionTableSize_eq (header : FileHeader) :
    sectionTableSize header = pure header.sectionTableSize := by
  have hcount := header.shnum.toNat_lt
  apply mul_eq
  simp only [Record.size, UInt64.size]
  omega

theorem checkIdent_eq {header : FileHeader} (hident : header.ident.size = 16) :
    checkIdent header = lift header.checkIdent := by
  have hmagic (i : Nat) (hi : i < 4) :
      Bytes.byteAt (header.ident.extract 0 4) i = Bytes.byteAt header.ident i := by
    rw [Bytes.byteAt_extract, if_pos (by omega), Nat.zero_add]
  unfold checkIdent FileHeader.checkIdent
  rw [slice_eq (by omega) (by omega), index_eq (by omega), index_eq (by omega),
    index_eq (by omega), index_eq (by omega)]
  simp only [pure_bind, lift_ite, lift_ok, lift_error, hmagic 0 (by omega), hmagic 1 (by omega),
    hmagic 2 (by omega), hmagic 3 (by omega)]

theorem checkTables_eq (header : FileHeader) :
    checkTables header = lift header.checkTables := by
  unfold checkTables FileHeader.checkTables
  simp only [programTableSize_eq, sectionTableSize_eq, pure_bind, lift_ite, lift_ok, lift_error]
  by_cases hfront : header.programTable < fileHeaderSize ∨ header.sectionTable < fileHeaderSize
  · rw [if_pos hfront, if_pos (by tauto)]
  · rw [if_neg hfront]
    obtain ⟨hprogram, hsection⟩ := not_or.1 hfront
    simp only [hprogram, hsection, false_or]
    rfl

theorem checkHeader_eq {header : FileHeader} (hident : header.ident.size = 16) :
    checkHeader header = lift header.check :=
  bind_eq_lift (checkIdent_eq hident) fun _ _ => bind_eq_lift rfl fun _ _ => checkTables_eq header

/-- The index of the section with the section names is less than the number of sections. -/
theorem shstrndx_lt_of_check {header : FileHeader} (h : header.check = .ok ()) :
    header.shstrndx.toNat < header.shnum.toNat := by
  obtain ⟨_, _, h⟩ := exists_of_bind_eq_ok h
  obtain ⟨_, hfields, _⟩ := exists_of_bind_eq_ok h
  unfold FileHeader.checkFields at hfields
  -- Each of the other rules fails with an error of its own.
  iterate 6
    split at hfields
    · cases hfields
  split at hfields
  · cases hfields
  · next hindex => exact UInt16.lt_iff_toNat_lt.1 (UInt16.not_le.1 hindex)

-- ════════════════════════════════════════════════════════════════════════
-- Header tables
-- ════════════════════════════════════════════════════════════════════════

/-- Checking the segments computes the sizes of both tables again. -/
def readProgramHeaders (file : ByteArray) (header : FileHeader) :
    Checked (Array ProgramHeader) := do
  let size ← programTableSize header
  let headers ← readTable ProgramHeader file header.programTable size
  let _ ← sectionTableSize header
  lift (checkSegments file.size header 0 none headers.toList)
  return headers

/-- Checking the sections computes the sizes of both tables again. -/
def readSectionHeaders (file : ByteArray) (header : FileHeader) :
    Checked (Array SectionHeader) := do
  let size ← sectionTableSize header
  let headers ← readTable SectionHeader file header.sectionTable size
  let _ ← programTableSize header
  lift (checkSectionTable file.size header headers.toList)
  return headers

def nameSections (file : ByteArray) (names : SectionHeader) (named : Array Section) :
    List SectionHeader → Checked (Array Section)
  | [] => return named
  | header :: rest => do
    let name ← tryCatch (readString file names header.name sectionNameLimit) fun _ =>
      throw (.invalidSectionName header.name.toNat)
    if isUniqueName name && named.any (·.name = name) then throw (.duplicateSection name)
    else nameSections file names (named.push { name, header }) rest

def readSections (file : ByteArray) (header : FileHeader) : Checked (Array Section) := do
  let headers ← readSectionHeaders file header
  let names ← element headers header.shstrndx.toNat
  if names.kind = stringTableKind then nameSections file names #[] headers.toList
  else throw (.invalidSection ".shstrtab" .notStringTable)

section Headers

variable (file : ByteArray) (header : FileHeader)

theorem readProgramHeaders_eq :
    readProgramHeaders file header = lift (Elf.readProgramHeaders file header) := by
  rw [readProgramHeaders, programTableSize_eq, sectionTableSize_eq, pure_bind]
  refine bind_eq_lift (readTable_eq file _ _) fun headers _ => ?_
  rw [pure_bind]
  exact bind_eq_lift rfl fun _ _ => rfl

theorem readSectionHeaders_eq :
    readSectionHeaders file header = lift (Elf.readSectionHeaders file header) := by
  rw [readSectionHeaders, programTableSize_eq, sectionTableSize_eq, pure_bind]
  refine bind_eq_lift (readTable_eq file _ _) fun headers _ => ?_
  rw [pure_bind]
  exact bind_eq_lift rfl fun _ _ => rfl

theorem nameSections_eq (names : SectionHeader) (named : Array Section)
    (headers : List SectionHeader) :
    nameSections file names named headers = lift (Elf.nameSections file names named headers) := by
  induction headers generalizing named with
  | nil => rfl
  | cons first rest ih =>
    rw [nameSections, readString_eq, tryCatch_lift, Elf.nameSections]
    cases Elf.readString file names first.name sectionNameLimit with
    | error => rfl
    | ok name =>
      dsimp only
      rw [pure_bind, lift_ite, ih]
      rfl

/-- There is a header for every section that the file header counts. -/
theorem size_of_readSectionHeaders {headers : Array SectionHeader}
    (h : Elf.readSectionHeaders file header = .ok headers) :
    headers.size = header.shnum.toNat := by
  obtain ⟨table, htable, h⟩ := exists_of_bind_eq_ok h
  obtain ⟨_, _, h⟩ := exists_of_bind_eq_ok h
  obtain rfl := Except.ok.inj h
  rw [(size_of_readTable file htable).1]
  exact Nat.mul_div_cancel _ (by decide)

theorem readSections_eq (hcheck : header.check = .ok ()) :
    readSections file header = lift (Elf.readSections file header) := by
  refine bind_eq_lift (readSectionHeaders_eq file header) fun headers hheaders => ?_
  have hindex : header.shstrndx.toNat < headers.size := by
    rw [size_of_readSectionHeaders file header hheaders]
    exact shstrndx_lt_of_check hcheck
  rw [element_eq hindex, pure_bind, Array.getElem?_eq_getElem hindex]
  dsimp only
  rw [lift_ite, nameSections_eq]
  rfl

end Headers

-- ════════════════════════════════════════════════════════════════════════
-- The dynamic table
-- ════════════════════════════════════════════════════════════════════════

def readDynamic (file : ByteArray) (programHeaders : Array ProgramHeader)
    (sections : Array Section) : Checked DynamicTable :=
  match dynamicRange? programHeaders sections with
  | none => return { entries := [] }
  | some (offset, size) =>
    if size % Record.size DynamicEntry ≠ 0 then throw (.invalidDynamic .tableSize)
    else do
      let entries ← readTable DynamicEntry file offset size
      return { entries := entries.toList.takeWhile (·.tag ≠ 0) }

/-- The value of a tag, which has to be one of those with a meaning. -/
def dynamicValue (table : DynamicTable) (tag : Nat) : Checked UInt64 :=
  if tag < DynamicTable.tagCount then return table.value tag else trap

/-- Whether a segment covers an address. -/
def covers (address : UInt64) (header : ProgramHeader) : Checked Bool :=
  if header.vaddr ≤ address then do
    let distance ← sub address.toNat header.vaddr.toNat
    return distance < header.memsz.toNat
  else return false

def fileOffset (programHeaders : Array ProgramHeader) (sections : Array Section)
    (address : UInt64) : Checked Nat := do
  match ← find? (covers address) programHeaders.toList with
  | some header =>
    let distance ← sub address.toNat header.vaddr.toNat
    let offset := distance + header.offset.toNat
    if maxWord < offset then throw (.invalidDynamic .relocationOffsetOverflow)
    else return offset
  | none =>
    match sectionAt? sections address with
    | some header => return header.offset.toNat
    | none => throw (.invalidDynamic .relocationTableMissing)

def readRelocations (file : ByteArray) (programHeaders : Array ProgramHeader)
    (sections : Array Section) (dynamic : DynamicTable) : Checked (List Relocation) := do
  let address ← dynamicValue dynamic DynamicTable.relocationTag
  if address = 0 then return []
  else
    let entrySize ← dynamicValue dynamic DynamicTable.relocationEntryTag
    if entrySize.toNat ≠ Record.size Relocation then throw (.invalidDynamic .relocationEntrySize)
    else
      let size ← dynamicValue dynamic DynamicTable.relocationSizeTag
      if size.toNat = 0 ∨ size.toNat % Record.size Relocation ≠ 0 ∨ UInt32.size ≤ size.toNat then
        throw (.invalidDynamic .relocationTableSize)
      else
        let offset ← fileOffset programHeaders sections address
        let table ← readTable Relocation file offset size.toNat
        return table.toList

def readSymbols (file : ByteArray) (sections : Array Section) (dynamic : DynamicTable) :
    Checked (Array Symbol) := do
  let address ← dynamicValue dynamic DynamicTable.symbolTableTag
  if address = 0 then return #[]
  else
    match sectionAt? sections address with
    | none => throw (.invalidDynamic .symbolTableMissing)
    | some header =>
      if header.kind ≠ symbolTableKind ∧ header.kind ≠ dynamicSymbolsKind then
        throw (.invalidDynamic .notSymbolTable)
      else if header.size.toNat % Record.size Symbol ≠ 0 then
        throw (.invalidDynamic .symbolTableSize)
      else readTable Symbol file header.offset.toNat header.size.toNat

section Dynamic

variable (file : ByteArray) (programHeaders : Array ProgramHeader) (sections : Array Section)
  (dynamic : DynamicTable)

theorem readDynamic_eq :
    readDynamic file programHeaders sections =
      lift (Elf.readDynamic file programHeaders sections) := by
  unfold readDynamic Elf.readDynamic
  cases dynamicRange? programHeaders sections with
  | none => rfl
  | some range =>
    dsimp only
    rw [lift_ite, readTable_eq]
    cases Elf.readTable DynamicEntry file range.1 range.2 <;> rfl

theorem dynamicValue_eq {tag : Nat} (h : tag < DynamicTable.tagCount) :
    dynamicValue dynamic tag = pure (dynamic.value tag) :=
  if_pos h

theorem covers_eq (address : UInt64) (header : ProgramHeader) :
    covers address header =
      pure (header.vaddr ≤ address && address.toNat < header.memoryStop) := by
  unfold covers
  by_cases hbase : header.vaddr ≤ address
  · have hle := UInt64.le_iff_toNat_le.1 hbase
    rw [if_pos hbase, sub_eq hle, pure_bind, decide_eq_true hbase, Bool.true_and,
      ProgramHeader.memoryStop]
    congr 2
    exact propext (Nat.sub_lt_iff_lt_add' hle)
  · rw [if_neg hbase, decide_eq_false hbase]
    rfl

theorem fileOffset_eq (address : UInt64) :
    fileOffset programHeaders sections address =
      lift (Elf.fileOffset programHeaders sections address) := by
  unfold fileOffset Elf.fileOffset
  rw [find?_eq fun header _ => covers_eq address header, pure_bind, Array.find?_toList]
  dsimp only
  cases hsegment : programHeaders.find? fun header =>
      header.vaddr ≤ address && address.toNat < header.memoryStop with
  | some header =>
    -- The segment that was found begins at the address or before it.
    have hcovers := Array.find?_some hsegment
    rw [Bool.and_eq_true, decide_eq_true_eq] at hcovers
    dsimp only
    rw [sub_eq (UInt64.le_iff_toNat_le.1 hcovers.1), pure_bind, lift_ite]
    rfl
  | none => cases sectionAt? sections address <;> rfl

theorem readRelocations_eq :
    readRelocations file programHeaders sections dynamic =
      lift (Elf.readRelocations file programHeaders sections dynamic) := by
  unfold readRelocations Elf.readRelocations
  simp only [dynamicValue_eq dynamic (show DynamicTable.relocationTag < _ by decide),
    dynamicValue_eq dynamic (show DynamicTable.relocationEntryTag < _ by decide),
    dynamicValue_eq dynamic (show DynamicTable.relocationSizeTag < _ by decide), pure_bind]
  split
  · rfl
  · split
    · rfl
    · split
      · rfl
      · refine bind_eq_lift (fileOffset_eq ..) fun offset _ => ?_
        exact bind_eq_lift (readTable_eq ..) fun _ _ => rfl

theorem readSymbols_eq :
    readSymbols file sections dynamic = lift (Elf.readSymbols file sections dynamic) := by
  unfold readSymbols Elf.readSymbols
  simp only [dynamicValue_eq dynamic (show DynamicTable.symbolTableTag < _ by decide), pure_bind]
  split
  · rfl
  · cases sectionAt? sections (dynamic.value DynamicTable.symbolTableTag) with
    | none => rfl
    | some header =>
      dsimp only
      split
      · rfl
      · split
        · rfl
        · exact readTable_eq ..

end Dynamic

-- ════════════════════════════════════════════════════════════════════════
-- Objects
-- ════════════════════════════════════════════════════════════════════════

/-- Reads and checks the metadata of a file. -/
def readObject (file : ByteArray) : Checked Object :=
  if maxFileSize < file.size then throw (.fileTooLarge file.size)
  else do
    let header ← readRecord FileHeader file 0
    checkHeader header
    let programHeaders ← readProgramHeaders file header
    let sections ← readSections file header
    match sections.findFinIdx? (·.name = textName) with
    | none => throw .missingText
    | some text =>
      let dynamic ← readDynamic file programHeaders sections
      let relocations ← readRelocations file programHeaders sections dynamic
      let symbols ← readSymbols file sections dynamic
      return {
        file, header, programHeaders, sections, text
        symbolNames := sections.findFinIdx? (·.name = symbolNamesName)
        dynamic, relocations, symbols }

theorem size_ident {file : ByteArray} {header : FileHeader}
    (h : Elf.readRecord FileHeader file 0 = .ok header) : header.ident.size = 16 := by
  unfold Elf.readRecord at h
  split at h
  · next hfile =>
    obtain rfl := Except.ok.inj h
    have hsize : 64 ≤ file.size := Nat.le_trans (Nat.le_of_eq rfl) hfile
    show (file.extract 0 16).size = 16
    rw [ByteArray.size_extract]
    omega
  · cases h

/-- Reading the metadata of a file does not trap. -/
theorem readObject_eq (file : ByteArray) : readObject file = lift (Object.ofFile file) := by
  unfold readObject Object.ofFile
  split
  · rfl
  · refine bind_eq_lift (readRecord_eq file 0) fun header hheader => ?_
    refine bind_eq_lift (checkHeader_eq (size_ident hheader)) fun _ hcheck => ?_
    refine bind_eq_lift (readProgramHeaders_eq file header) fun programHeaders _ => ?_
    refine bind_eq_lift (readSections_eq file header hcheck) fun sections _ => ?_
    cases sections.findFinIdx? (·.name = textName) with
    | none => rfl
    | some text =>
      refine bind_eq_lift (readDynamic_eq ..) fun dynamic _ => ?_
      refine bind_eq_lift (readRelocations_eq ..) fun relocations _ => ?_
      exact bind_eq_lift (readSymbols_eq ..) fun symbols _ => rfl

/-- A file has no more relocations than bytes. -/
theorem length_of_readRelocations {file : ByteArray} {programHeaders : Array ProgramHeader}
    {sections : Array Section} {dynamic : DynamicTable} {relocations : List Relocation}
    (h : Elf.readRelocations file programHeaders sections dynamic = .ok relocations) :
    relocations.length ≤ file.size := by
  unfold Elf.readRelocations at h
  dsimp only at h
  split at h
  · obtain rfl := Except.ok.inj h
    exact Nat.zero_le _
  · split at h
    · cases h
    · split at h
      · cases h
      · obtain ⟨offset, _, h⟩ := exists_of_bind_eq_ok h
        obtain ⟨table, htable, h⟩ := exists_of_bind_eq_ok h
        obtain rfl := Except.ok.inj h
        obtain ⟨hsize, hinside⟩ := size_of_readTable file htable
        have hdiv := Nat.div_le_self (dynamic.value DynamicTable.relocationSizeTag).toNat
          (Record.size Relocation)
        rw [Array.length_toList]
        omega

end Checked

end SbfMachine
