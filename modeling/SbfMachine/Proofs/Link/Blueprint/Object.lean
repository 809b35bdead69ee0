import SbfMachine.Proofs.Elf.Acceptance
import SbfMachine.Proofs.Link.Blueprint.Parts

/-!
# Files that are written can be read

The metadata of a file that was written from a blueprint is that of the blueprint. Readers find
each part through offsets in the headers and through addresses in the dynamic table; an empty
section may share its address with the one behind it, but neither the symbols nor the relocations
have an address that an earlier section has, too.

## Main definitions

- `Blueprint.Buildable` — what a blueprint needs for its file to be read
- `Blueprint.object` — the metadata of the file

## Main statements

- `Blueprint.Buildable.ofFile_build` — the file is read as that object
-/

namespace SbfMachine.Link.Blueprint

open Bytes (Holds)
open Elf

/-- The text consists of whole slots, and the file is not too large to be looked at. -/
structure Buildable (blueprint : Blueprint) : Prop where
  /-- There is only the one segment with text and constants. -/
  segments : blueprint.segments = []
  nonempty : 0 < blueprint.text.size
  aligned : blueprint.text.size % slotSize = 0
  size_le : blueprint.build.size ≤ maxFileSize

-- ════════════════════════════════════════════════════════════════════════
-- Places
-- ════════════════════════════════════════════════════════════════════════

/-- The places of the sections, in terms of their sizes. -/
structure Placed (blueprint : Blueprint) : Prop where
  text : textOffset = 120
  rodata : blueprint.rodataOffset = 120 + blueprint.text.size
  dynamic : blueprint.rodataOffset + blueprint.rodata.size ≤ blueprint.dynamicOffset
  symbols : blueprint.symbolOffset = blueprint.dynamicOffset + 96
  symbolNames :
    blueprint.symbolNamesOffset = blueprint.symbolOffset + blueprint.symbolSection.size
  symbolNames_pos : 0 < blueprint.symbolNames.size
  relocations :
    blueprint.symbolNamesOffset + blueprint.symbolNames.size ≤ blueprint.relocationOffset
  sectionNames :
    blueprint.sectionNamesOffset = blueprint.relocationOffset + blueprint.relocationSection.size
  sectionHeaders :
    blueprint.sectionNamesOffset + sectionNameTable.size ≤ blueprint.sectionHeadersOffset
  stop : blueprint.build.size = blueprint.sectionHeadersOffset + 512
  stop_le : blueprint.build.size ≤ 67108864

variable {blueprint : Blueprint}

theorem Buildable.placed (h : blueprint.Buildable) : blueprint.Placed where
  text := by decide
  rodata := by
    have haligned := h.aligned
    simp only [slotSize] at haligned
    have htext : textOffset = 120 := by decide
    rw [rodataOffset, htext, Bytes.align8]
    omega
  dynamic := le_align8 _
  symbols := rfl
  symbolNames := rfl
  symbolNames_pos := by
    rw [symbolNames, stringTable_eq, ByteArray.size_append, ByteArray.size_push]
    omega
  relocations := le_align8 _
  sectionNames := rfl
  sectionHeaders := le_align8 _
  stop := size_build h.segments
  stop_le := h.size_le

/-- The constants stand right behind the text. -/
theorem Buildable.rodataOffset_eq (h : blueprint.Buildable) :
    blueprint.rodataOffset = textOffset + blueprint.text.size := by
  obtain ⟨⟩ := h.placed
  omega

theorem toNat_ofNat {n : Nat} (h : n ≤ 67108864) : (UInt64.ofNat n).toNat = n := by
  rw [UInt64.toNat_ofNat', Nat.mod_eq_of_lt]
  omega

theorem toNat_ofNat32 {n : Nat} (h : n ≤ 67108864) : (UInt32.ofNat n).toNat = n := by
  rw [UInt32.toNat_ofNat', Nat.mod_eq_of_lt]
  omega

-- ════════════════════════════════════════════════════════════════════════
-- The object
-- ════════════════════════════════════════════════════════════════════════

/-- A section with its name, which stands at an offset of the name table. -/
def planned (plan : SectionPlan) (name : Nat) : Elf.Section where
  name := plan.name
  header := sectionHeader plan name

/-- The sections of the file, after the one that is no section. -/
def sections (blueprint : Blueprint) : List Elf.Section :=
  { name := "", header := nullSectionHeader } ::
    List.zipWith planned blueprint.sectionPlans (stringOffsets 1 sectionNames)

theorem size_sections (blueprint : Blueprint) : blueprint.sections.toArray.size = 8 :=
  rfl

theorem name_sections (blueprint : Blueprint) :
    blueprint.sections.map (·.name) = "" :: sectionNames :=
  rfl

/-- The number of the section with the text. -/
def textIndex (blueprint : Blueprint) : Fin blueprint.sections.toArray.size :=
  ⟨1, by rw [size_sections]; decide⟩

/-- The number of the section with the names of the symbols. -/
def symbolNamesIndex (blueprint : Blueprint) : Fin blueprint.sections.toArray.size :=
  ⟨5, by rw [size_sections]; decide⟩

/-- The metadata of the file. -/
def object (blueprint : Blueprint) : Object where
  file := blueprint.build
  header := blueprint.fileHeader
  programHeaders := #[programHeader blueprint.mainSegment]
  sections := blueprint.sections.toArray
  text := blueprint.textIndex
  symbolNames := some blueprint.symbolNamesIndex
  dynamic := { entries := blueprint.dynamicEntries.takeWhile (·.tag ≠ 0) }
  relocations := blueprint.relocations.map blueprint.relocationRecord
  symbols := blueprint.symbolRecords.toArray

namespace Buildable

variable (h : blueprint.Buildable)
include h

-- ════════════════════════════════════════════════════════════════════════
-- Headers
-- ════════════════════════════════════════════════════════════════════════

theorem programTable : blueprint.fileHeader.programTable = 64 := by
  rw [FileHeader.programTable, fileHeader, programHeadersOffset, h.segments]
  rfl

theorem programTableSize : blueprint.fileHeader.programTableSize = 56 := by
  rw [FileHeader.programTableSize, fileHeader, h.segments]
  rfl

theorem sectionTable : blueprint.fileHeader.sectionTable = blueprint.sectionHeadersOffset := by
  have hplaced := h.placed
  exact toNat_ofNat (by have := hplaced.stop; have := hplaced.stop_le; omega)

theorem check_fileHeader : blueprint.fileHeader.check = .ok () := by
  have htables : blueprint.fileHeader.checkTables = .ok () := by
    obtain ⟨⟩ := h.placed
    apply FileHeader.checkTables_eq_ok
    · rw [h.programTable]
      decide
    · rw [h.programTable, h.programTableSize, h.sectionTable]
      omega
  have hident : blueprint.fileHeader.checkIdent = .ok () := rfl
  have hfields : blueprint.fileHeader.checkFields = .ok () := rfl
  rw [FileHeader.check, hident, hfields, htables]
  rfl

theorem segment_offset :
    (programHeader blueprint.mainSegment).offset.toNat = 120 ∧
      (programHeader blueprint.mainSegment).vaddr.toNat = 120 ∧
      (programHeader blueprint.mainSegment).filesz.toNat =
        blueprint.rodataOffset + blueprint.rodata.size - 120 ∧
      (programHeader blueprint.mainSegment).memsz.toNat =
        blueprint.rodataOffset + blueprint.rodata.size - 120 := by
  obtain ⟨⟩ := h.placed
  have hsize : (UInt64.ofNat (blueprint.rodataOffset + blueprint.rodata.size - textOffset)).toNat =
      blueprint.rodataOffset + blueprint.rodata.size - 120 := toNat_ofNat (by omega)
  have hoffset : (UInt64.ofNat textOffset).toNat = 120 := by decide
  exact ⟨hoffset, hoffset, hsize, hsize⟩

theorem readProgramHeaders_build :
    readProgramHeaders blueprint.build blueprint.fileHeader =
      .ok #[programHeader blueprint.mainSegment] := by
  have hheld := (heldBy_build h.segments).programHeaders
  have hsize : (encodeTable [programHeader blueprint.mainSegment]).size = 56 := by
    rw [size_encodeTable fun header _ => header.faithful]
    rfl
  have htable : readTable ProgramHeader blueprint.build 64 56 =
      .ok #[programHeader blueprint.mainSegment] := by
    rw [← hsize]
    exact readTable_of_holds (by decide) (fun header _ => header.faithful) hheld
  have hflaw : (programHeader blueprint.mainSegment).flaw? blueprint.build.size
      blueprint.fileHeader none = none := by
    obtain ⟨hoffset, hvaddr, hfilesz, hmemsz⟩ := h.segment_offset
    have hprogram := h.programTable
    have hprogramSize := h.programTableSize
    have hsections := h.sectionTable
    have hheader : fileHeaderSize = 64 := rfl
    have hmemory : programBase.toNat + (programHeader blueprint.mainSegment).memoryStop ≤
        stackBase.toNat := by
      have hbase : programBase.toNat + 0x100000000 = stackBase.toNat := by decide
      obtain ⟨⟩ := h.placed
      rw [ProgramHeader.memoryStop]
      omega
    obtain ⟨⟩ := h.placed
    exact ProgramHeader.flaw?_eq_none (by omega) (by omega) (by omega) (by omega) hmemory
  have hload : (programHeader blueprint.mainSegment).isLoad = true := by
    rw [ProgramHeader.isLoad, programHeader, decide_eq_true_eq]
  rw [readProgramHeaders, h.programTable, h.programTableSize, htable]
  simp only [bind, Except.bind, checkSegments, hload, if_true, hflaw]
  rfl

-- ════════════════════════════════════════════════════════════════════════
-- Sections
-- ════════════════════════════════════════════════════════════════════════

omit h in
theorem toNat_sectionHeader {plan : SectionPlan} (name : Nat)
    (hplan : plan.offset + plan.size ≤ 67108864) :
    (sectionHeader plan name).offset.toNat = plan.offset ∧
      (sectionHeader plan name).size.toNat = plan.size ∧
      (sectionHeader plan name).stop = plan.offset + plan.size := by
  have hoffset : (sectionHeader plan name).offset.toNat = plan.offset := toNat_ofNat (by omega)
  have hsize : (sectionHeader plan name).size.toNat = plan.size := toNat_ofNat (by omega)
  exact ⟨hoffset, hsize, by rw [SectionHeader.stop, hoffset, hsize]⟩

omit h in
/-- Planned sections are in order if their plans are. -/
theorem sectionsInOrder_cons {plan : SectionPlan} {name start stop : Nat}
    {rest : List SectionHeader} (hstart : start ≤ plan.offset)
    (hplan : plan.offset + plan.size ≤ 67108864)
    (hrest : SectionsInOrder (plan.offset + plan.size) stop rest) :
    SectionsInOrder start stop (sectionHeader plan name :: rest) := by
  obtain ⟨hoffset, _, hstop⟩ := toNat_sectionHeader name hplan
  exact ⟨by rwa [hoffset], by rwa [hstop]⟩

theorem sectionsInOrder :
    SectionsInOrder 120 blueprint.sectionHeadersOffset
      (List.zipWith sectionHeader blueprint.sectionPlans (stringOffsets 1 sectionNames)) := by
  obtain ⟨⟩ := h.placed
  have hdynamic : dynamicEntryCount * Record.size DynamicEntry = 96 := rfl
  simp only [sectionPlans, sectionNames, stringOffsets, List.zipWith_cons_cons,
    List.zipWith_nil_left]
  iterate 7 refine sectionsInOrder_cons (by dsimp only; omega) (by dsimp only; omega) ?_
  dsimp only [SectionsInOrder]
  omega

theorem readSectionHeaders_build :
    readSectionHeaders blueprint.build blueprint.fileHeader =
      .ok blueprint.sectionHeaders.toArray := by
  have hheld := (heldBy_build h.segments).sectionHeaders
  have htable : readTable SectionHeader blueprint.build blueprint.sectionHeadersOffset 512 =
      .ok blueprint.sectionHeaders.toArray := by
    rw [← blueprint.size_sectionHeaderTable]
    exact readTable_of_holds (by decide) (fun header _ => header.faithful) hheld
  have hsize : blueprint.fileHeader.sectionTableSize = 512 := rfl
  have hchecked : checkSectionTable blueprint.build.size blueprint.fileHeader
      blueprint.sectionHeaders = .ok () := by
    have horder := h.sectionsInOrder
    rw [← h.sectionTable] at horder
    have hprogram := h.programTable
    have hprogramSize := h.programTableSize
    have hsections := h.sectionTable
    have hword : maxWord = 18446744073709551615 := rfl
    obtain ⟨⟩ := h.placed
    have hnull : nullSectionHeader.kind = nullSectionKind := rfl
    rw [sectionHeaders, checkSectionTable, if_pos hnull]
    exact checkSections_eq_ok horder (by decide) (by omega) (by omega) (by omega) 1 (by decide)
  rw [readSectionHeaders, h.sectionTable, hsize, htable]
  simp only [bind, Except.bind, hchecked]
  rfl

/-- The name of each section is read from the name table. -/
theorem readString_section {item : Elf.Section} (hitem : item ∈ blueprint.sections)
    {names : SectionHeader} (hkind : names.kind = stringTableKind)
    (hoffset : names.offset.toNat = blueprint.sectionNamesOffset)
    (hsize : names.size.toNat = sectionNameTable.size) :
    readString blueprint.build names item.header.name sectionNameLimit = .ok item.name := by
  have hheld := (heldBy_build h.segments).sectionNames
  have hplaced := h.placed
  have hfile : blueprint.build.size < UInt64.size :=
    Nat.lt_of_le_of_lt hplaced.stop_le (by decide)
  rw [← hoffset] at hheld
  rcases List.mem_cons.1 hitem with rfl | hplanned
  · exact readString_of_holds hkind hsize hfile hheld (holds_stringTable_empty _) (by decide)
      (by decide)
  · obtain ⟨i, hi⟩ := List.mem_iff_getElem?.1 hplanned
    obtain ⟨plan, name, hplan, hname, rfl⟩ := List.getElem?_zipWith_eq_some.1 hi
    have hnames : sectionNames[i]? = some plan.name := by
      have hmap : blueprint.sectionPlans.map (·.name) = sectionNames := rfl
      rw [← hmap, List.getElem?_map, hplan, Option.map_some]
    obtain ⟨offset, hoffsets, hterminated⟩ := holds_stringTable hnames
    obtain rfl : offset = name := Option.some.inj (hoffsets.symm.trans hname)
    obtain ⟨hnul, hlimit⟩ : NulFree plan.name ∧ plan.name.utf8ByteSize < sectionNameLimit := by
      have hall : ∀ name ∈ sectionNames, NulFree name ∧ name.utf8ByteSize < sectionNameLimit := by
        decide
      exact hall _ (List.mem_of_getElem? hnames)
    have hnumber : (UInt32.ofNat offset).toNat = offset := by
      have hinside := hterminated.inside
      have htable := hheld.inside
      have hstop := hplaced.stop_le
      rw [sectionNameTable] at htable
      exact toNat_ofNat32 (by omega)
    refine readString_of_holds hkind hsize hfile hheld ?_ hnul hlimit
    rw [planned, sectionHeader, hnumber]
    exact hterminated

theorem readSections_build :
    readSections blueprint.build blueprint.fileHeader = .ok blueprint.sections.toArray := by
  obtain ⟨names, hnames, hkind, hoffset, hsize⟩ :
      ∃ names, blueprint.sectionHeaders.toArray[blueprint.fileHeader.shstrndx.toNat]? =
          some names ∧ names.kind = stringTableKind ∧
        names.offset.toNat = blueprint.sectionNamesOffset ∧
        names.size.toNat = sectionNameTable.size := by
    obtain ⟨⟩ := h.placed
    have hoffset : (UInt64.ofNat blueprint.sectionNamesOffset).toNat =
        blueprint.sectionNamesOffset := toNat_ofNat (by omega)
    have hsize : (UInt64.ofNat sectionNameTable.size).toNat = sectionNameTable.size :=
      toNat_ofNat (by omega)
    exact ⟨_, rfl, rfl, hoffset, hsize⟩
  have hnamed : nameSections blueprint.build names (List.toArray [])
      (blueprint.sections.map (·.header)) = .ok ([] ++ blueprint.sections).toArray := by
    have hdistinct : ("" :: sectionNames).Nodup := by decide
    exact nameSections_eq_ok
      (fun item hitem => h.readString_section hitem hkind hoffset hsize) hdistinct
  rw [readSections, h.readSectionHeaders_build]
  simp only [bind, Except.bind, hnames, if_pos hkind]
  exact hnamed

-- ════════════════════════════════════════════════════════════════════════
-- The dynamic table
-- ════════════════════════════════════════════════════════════════════════

omit h in
/-- The entries before the end mark: where the symbols and their names are, and where the
relocations are, if there are any. -/
theorem dynamic_entries (blueprint : Blueprint) :
    blueprint.object.dynamic.entries =
      (if blueprint.relocations.isEmpty then []
        else
          [dynamicEntry DynamicTable.relocationTag blueprint.relocationOffset,
           dynamicEntry DynamicTable.relocationSizeTag blueprint.relocationSection.size,
           dynamicEntry DynamicTable.relocationEntryTag (Record.size Relocation)]) ++
        [dynamicEntry DynamicTable.symbolTableTag blueprint.symbolOffset,
         dynamicEntry DynamicTable.symbolNamesTag blueprint.symbolNamesOffset] := by
  rw [object, dynamicEntries]
  cases blueprint.relocations.isEmpty <;> rfl

omit h in
theorem value_symbolTable (blueprint : Blueprint) :
    blueprint.object.dynamic.value DynamicTable.symbolTableTag =
      UInt64.ofNat blueprint.symbolOffset := by
  rw [DynamicTable.value, dynamic_entries]
  cases blueprint.relocations.isEmpty <;> rfl

omit h in
theorem value_relocation_of_isEmpty (hempty : blueprint.relocations.isEmpty = true) :
    blueprint.object.dynamic.value DynamicTable.relocationTag = 0 := by
  rw [DynamicTable.value, dynamic_entries, hempty]
  rfl

omit h in
theorem value_relocation (hempty : blueprint.relocations.isEmpty = false) :
    blueprint.object.dynamic.value DynamicTable.relocationTag =
        UInt64.ofNat blueprint.relocationOffset ∧
      blueprint.object.dynamic.value DynamicTable.relocationSizeTag =
        UInt64.ofNat blueprint.relocationSection.size ∧
      blueprint.object.dynamic.value DynamicTable.relocationEntryTag =
        UInt64.ofNat (Record.size Relocation) := by
  simp only [DynamicTable.value, dynamic_entries, hempty]
  exact ⟨rfl, rfl, rfl⟩

theorem readDynamic_build :
    readDynamic blueprint.build #[programHeader blueprint.mainSegment]
      blueprint.sections.toArray = .ok blueprint.object.dynamic := by
  have hheld := (heldBy_build h.segments).dynamic
  have htable : readTable DynamicEntry blueprint.build blueprint.dynamicOffset 96 =
      .ok blueprint.dynamicEntries.toArray := by
    rw [← blueprint.size_dynamicTable]
    exact readTable_of_holds (by decide) (fun entry _ => entry.faithful) hheld
  have hrange : dynamicRange? #[programHeader blueprint.mainSegment]
      blueprint.sections.toArray = some (blueprint.dynamicOffset, 96) := by
    have hsegment : (#[programHeader blueprint.mainSegment] : Array ProgramHeader).find?
        (·.kind = dynamicSegmentKind) = none := by
      rw [List.find?_toArray]
      rfl
    have hsection : blueprint.sections.toArray.find? (·.header.kind = dynamicSectionKind) =
        some (planned ⟨".dynamic", dynamicSectionKind, blueprint.dynamicOffset, 96, 5⟩ 15) := by
      rw [List.find?_toArray]
      rfl
    have hoffset : (UInt64.ofNat blueprint.dynamicOffset).toNat = blueprint.dynamicOffset := by
      obtain ⟨⟩ := h.placed
      exact toNat_ofNat (by omega)
    rw [dynamicRange?, hsegment, hsection, Option.map_some, planned, sectionHeader, hoffset]
    rfl
  have hwhole : 96 % Record.size DynamicEntry = 0 := rfl
  rw [readDynamic, hrange]
  simp only [hwhole, htable]
  rfl

-- ════════════════════════════════════════════════════════════════════════
-- Symbols and relocations
-- ════════════════════════════════════════════════════════════════════════

omit h in
theorem ofNat_ne {a b : Nat} (hb : b ≤ 67108864) (hlt : a < b) :
    UInt64.ofNat a ≠ UInt64.ofNat b := by
  intro hsame
  have hnumber := congrArg UInt64.toNat hsame
  rw [toNat_ofNat (by omega), toNat_ofNat hb] at hnumber
  omega

omit h in
theorem ofNat_ne_zero {n : Nat} (hpos : 0 < n) (hn : n ≤ 67108864) : UInt64.ofNat n ≠ 0 :=
  (ofNat_ne hn hpos).symm

omit h in
theorem sectionAt?_eq_some {sections before after : List Elf.Section} {item : Elf.Section}
    {address : UInt64} (hsections : sections = before ++ item :: after)
    (hbefore : ∀ other ∈ before, other.header.kind ≠ nullSectionKind →
      other.header.addr ≠ address)
    (hkind : item.header.kind ≠ nullSectionKind) (haddress : item.header.addr = address) :
    sectionAt? sections.toArray address = some item.header := by
  have hnone : before.find? (fun candidate =>
      candidate.header.kind ≠ nullSectionKind && candidate.header.addr = address) = none := by
    rw [List.find?_eq_none]
    intro other hother
    simpa using hbefore other hother
  rw [sectionAt?, hsections, List.find?_toArray, List.find?_append, hnone, Option.none_or,
    List.find?_cons]
  simp only [hkind, haddress, ne_eq, not_false_eq_true, decide_true, Bool.and_self,
    Option.map_some]

/-- No section before the symbols has their address. -/
theorem sectionAt?_symbols :
    ∃ header, sectionAt? blueprint.sections.toArray (UInt64.ofNat blueprint.symbolOffset) =
        some header ∧ header.kind = dynamicSymbolsKind ∧
      header.offset.toNat = blueprint.symbolOffset ∧
      header.size.toNat = blueprint.symbolSection.size := by
  obtain ⟨⟩ := h.placed
  have hlength : 4 < blueprint.sections.length := (by decide : 4 < 8)
  have hsections : blueprint.sections =
      blueprint.sections.take 4 ++ blueprint.sections[4] :: blueprint.sections.drop 5 := rfl
  have hbefore : ∀ other ∈ blueprint.sections.take 4, other.header.kind ≠ nullSectionKind →
      other.header.addr ≠ UInt64.ofNat blueprint.symbolOffset := by
    refine List.forall_mem_cons.2 ⟨fun hkind => absurd rfl hkind, ?_⟩
    iterate 3
      refine List.forall_mem_cons.2 ⟨fun _ => ofNat_ne (by omega) (by dsimp only; omega), ?_⟩
    exact fun _ hmem => absurd hmem List.not_mem_nil
  have hoffset : (UInt64.ofNat blueprint.symbolOffset).toNat = blueprint.symbolOffset :=
    toNat_ofNat (by omega)
  have hsize : (UInt64.ofNat blueprint.symbolSection.size).toNat = blueprint.symbolSection.size :=
    toNat_ofNat (by omega)
  have hkind : dynamicSymbolsKind ≠ nullSectionKind := by decide
  exact ⟨_, sectionAt?_eq_some hsections hbefore hkind rfl, rfl, hoffset, hsize⟩

/-- No section before the relocations has their address. -/
theorem sectionAt?_relocations :
    ∃ header, sectionAt? blueprint.sections.toArray (UInt64.ofNat blueprint.relocationOffset) =
        some header ∧ header.offset.toNat = blueprint.relocationOffset := by
  obtain ⟨⟩ := h.placed
  have hlength : 6 < blueprint.sections.length := (by decide : 6 < 8)
  have hsections : blueprint.sections =
      blueprint.sections.take 6 ++ blueprint.sections[6] :: blueprint.sections.drop 7 := rfl
  have hbefore : ∀ other ∈ blueprint.sections.take 6, other.header.kind ≠ nullSectionKind →
      other.header.addr ≠ UInt64.ofNat blueprint.relocationOffset := by
    refine List.forall_mem_cons.2 ⟨fun hkind => absurd rfl hkind, ?_⟩
    iterate 5
      refine List.forall_mem_cons.2 ⟨fun _ => ofNat_ne (by omega) (by dsimp only; omega), ?_⟩
    exact fun _ hmem => absurd hmem List.not_mem_nil
  have hoffset : (UInt64.ofNat blueprint.relocationOffset).toNat = blueprint.relocationOffset :=
    toNat_ofNat (by omega)
  have hkind : relocationSectionKind ≠ nullSectionKind := by decide
  exact ⟨_, sectionAt?_eq_some hsections hbefore hkind rfl, hoffset⟩

theorem readSymbols_build :
    readSymbols blueprint.build blueprint.sections.toArray blueprint.object.dynamic =
      .ok blueprint.symbolRecords.toArray := by
  have hheld := (heldBy_build h.segments).symbols
  obtain ⟨header, hheader, hkind, hoffset, hsize⟩ := h.sectionAt?_symbols
  have hnonzero : UInt64.ofNat blueprint.symbolOffset ≠ 0 := by
    obtain ⟨⟩ := h.placed
    exact ofNat_ne_zero (by omega) (by omega)
  have hwhole : blueprint.symbolSection.size % Record.size Symbol = 0 := by
    rw [size_symbolSection]
    exact Nat.mul_mod_right 24 _
  have htable : readTable Symbol blueprint.build blueprint.symbolOffset
      blueprint.symbolSection.size = .ok blueprint.symbolRecords.toArray :=
    readTable_of_holds (by decide) (fun symbol _ => symbol.faithful) hheld
  unfold readSymbols
  simp only [value_symbolTable, if_neg hnonzero, hheader, hkind, ne_eq, not_true_eq_false,
    and_false, if_false, hwhole, hoffset, hsize, htable]

/-- The relocations are behind the text and the constants, so no segment covers their address. -/
theorem fileOffset_relocations :
    fileOffset #[programHeader blueprint.mainSegment] blueprint.sections.toArray
      (UInt64.ofNat blueprint.relocationOffset) = .ok blueprint.relocationOffset := by
  obtain ⟨header, hheader, hoffset⟩ := h.sectionAt?_relocations
  obtain ⟨_, hvaddr, _, hmemsz⟩ := h.segment_offset
  have haddress : (UInt64.ofNat blueprint.relocationOffset).toNat = blueprint.relocationOffset := by
    obtain ⟨⟩ := h.placed
    exact toNat_ofNat (by omega)
  have hcovered : ¬blueprint.relocationOffset <
      (programHeader blueprint.mainSegment).memoryStop := by
    obtain ⟨⟩ := h.placed
    rw [ProgramHeader.memoryStop]
    omega
  unfold fileOffset
  simp only [List.find?_toArray, List.find?_cons, List.find?_nil, haddress, hcovered, decide_false,
    Bool.and_false, hheader, hoffset]

theorem readRelocations_build :
    readRelocations blueprint.build #[programHeader blueprint.mainSegment]
      blueprint.sections.toArray blueprint.object.dynamic =
        .ok (blueprint.relocations.map blueprint.relocationRecord) := by
  cases hempty : blueprint.relocations.isEmpty with
  | true =>
    unfold readRelocations
    simp only [value_relocation_of_isEmpty hempty, if_true, List.isEmpty_iff.1 hempty]
    rfl
  | false =>
    have hheld := (heldBy_build h.segments).relocations
    obtain ⟨htag, hsizeTag, hentryTag⟩ := value_relocation hempty
    have hnonzero : UInt64.ofNat blueprint.relocationOffset ≠ 0 := by
      obtain ⟨⟩ := h.placed
      exact ofNat_ne_zero (by omega) (by omega)
    have hsize : (UInt64.ofNat blueprint.relocationSection.size).toNat =
        blueprint.relocationSection.size := by
      obtain ⟨⟩ := h.placed
      exact toNat_ofNat (by omega)
    have hpos : blueprint.relocationSection.size ≠ 0 := by
      have hlength := List.length_pos_iff.2 (List.isEmpty_eq_false_iff.1 hempty)
      rw [size_relocationSection]
      omega
    have hentry : (UInt64.ofNat (Record.size Relocation)).toNat = Record.size Relocation := rfl
    have hwhole : blueprint.relocationSection.size % Record.size Relocation = 0 := by
      rw [size_relocationSection]
      exact Nat.mul_mod_right 16 _
    have hsmall : ¬UInt32.size ≤ blueprint.relocationSection.size := by
      obtain ⟨⟩ := h.placed
      simp only [UInt32.size]
      omega
    have htable : readTable Relocation blueprint.build blueprint.relocationOffset
        blueprint.relocationSection.size =
          .ok (blueprint.relocations.map blueprint.relocationRecord).toArray :=
      readTable_of_holds (by decide) (fun relocation _ => relocation.faithful) hheld
    unfold readRelocations
    simp only [htag, hsizeTag, hentryTag, if_neg hnonzero, hentry, ne_eq, not_true_eq_false,
      if_false, hsize, hpos, hwhole, hsmall, or_false, bind, Except.bind, h.fileOffset_relocations,
      htable]
    rfl

-- ════════════════════════════════════════════════════════════════════════
-- The whole file
-- ════════════════════════════════════════════════════════════════════════

omit h in
/-- The sections have different names, so the one that is found by its name is the one of that
name. -/
theorem findFinIdx?_name {name : String} {index : Fin blueprint.sections.toArray.size}
    (hname : ("" :: sectionNames)[index.val]? = some name) :
    blueprint.sections.toArray.findFinIdx? (·.name = name) = some index := by
  have hnames (i : Fin blueprint.sections.toArray.size) :
      ("" :: sectionNames)[i.val]? = some blueprint.sections.toArray[i].name := by
    rw [← name_sections blueprint, List.getElem?_map, List.getElem?_eq_getElem i.isLt]
    rfl
  have hdistinct : ("" :: sectionNames).Nodup := by decide
  refine Array.findFinIdx?_eq_some_iff.2 ⟨?_, fun other hother hsame => ?_⟩
  · exact decide_eq_true (Option.some.inj ((hnames index).symm.trans hname))
  · have hother' := hnames other
    rw [of_decide_eq_true hsame, ← hname] at hother'
    have hlength : other.val < ("" :: sectionNames).length := other.isLt
    have heq := (List.getElem?_inj hlength hdistinct).1 hother'
    exact absurd hother (by rw [Fin.lt_def, heq]; exact Nat.lt_irrefl _)

/-- A file that is written is read as the object of its blueprint. -/
theorem ofFile_build : Object.ofFile blueprint.build = .ok blueprint.object := by
  have hheader : readRecord FileHeader blueprint.build 0 = .ok blueprint.fileHeader :=
    readRecord_of_holds blueprint.fileHeader_faithful (heldBy_build h.segments).fileHeader
  have htext : blueprint.sections.toArray.findFinIdx? (·.name = textName) =
      some blueprint.textIndex := findFinIdx?_name rfl
  have hnames : blueprint.sections.toArray.findFinIdx? (·.name = symbolNamesName) =
      some blueprint.symbolNamesIndex := findFinIdx?_name rfl
  unfold Object.ofFile
  simp only [if_neg (Nat.not_lt.2 h.size_le), hheader, bind, Except.bind, h.check_fileHeader,
    h.readProgramHeaders_build, h.readSections_build, htext, h.readDynamic_build,
    h.readRelocations_build, h.readSymbols_build, hnames]
  rfl

end Buildable

end SbfMachine.Link.Blueprint
