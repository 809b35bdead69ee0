import Mathlib.Order.CompletePartialOrder
import Mathlib.Order.Interval.Set.Disjoint
import SbfMachine.Link.Blueprint
import SbfMachine.Proofs.Elf.Acceptance

/-!
# The layout of accepted files

A header table is checked entry by entry: a loadable segment is compared with the one before it,
and a section with the end of the data so far. As what is compared only grows, the entries of an
accepted table are in order, whether they are neighbours or not. Ranges are compared after they have
been cut off at the largest word, which makes no difference for the header tables, because they end
inside the file.

## Main definitions

- `FileHeader.TablesPlaced`, `FileHeader.Clear` — the header tables, and ranges apart from them
- `ProgramHeader.Placed`, `ProgramHeader.Before` — a loadable segment, and the order of two of them
- `SectionHeader.Placed`, `SectionHeader.Before` — a section with bytes in the file, and their order
- `Object.LaidOut` — the layout of a file

## Main statements

- `disjoint_of_overlaps` — the check for common bytes is exact for ranges inside a file
- `placed_of_checkSegments`, `placed_of_checkSections` — what the passes over the tables establish
- `Object.laidOut_of_ofFile` — accepted files are laid out like this
-/

namespace SbfMachine.Elf

-- ════════════════════════════════════════════════════════════════════════
-- Ranges of a file
-- ════════════════════════════════════════════════════════════════════════

/-- The bytes of the file header. -/
def fileHeaderRange : Set Nat :=
  Set.Ico 0 fileHeaderSize

namespace FileHeader

def programTableRange (file : FileHeader) : Set Nat :=
  Set.Ico file.programTable (file.programTable + file.programTableSize)

def sectionTableRange (file : FileHeader) : Set Nat :=
  Set.Ico file.sectionTable (file.sectionTable + file.sectionTableSize)

/-- The header tables are inside the file, behind the file header and apart from each other. -/
structure TablesPlaced (fileSize : Nat) (file : FileHeader) : Prop where
  programTable_start : fileHeaderSize ≤ file.programTable
  programTable_stop : file.programTable + file.programTableSize ≤ fileSize
  sectionTable_start : fileHeaderSize ≤ file.sectionTable
  sectionTable_stop : file.sectionTable + file.sectionTableSize ≤ fileSize
  apart : Disjoint file.programTableRange file.sectionTableRange

/-- A range of the file that has no byte of a header. -/
structure Clear (file : FileHeader) (range : Set Nat) : Prop where
  fileHeader : Disjoint fileHeaderRange range
  programTable : Disjoint file.programTableRange range
  sectionTable : Disjoint file.sectionTableRange range

end FileHeader

namespace ProgramHeader

/-- The bytes of the file that a segment is loaded from. -/
def fileRange (header : ProgramHeader) : Set Nat :=
  Set.Ico header.offset.toNat (header.offset.toNat + header.filesz.toNat)

/-- The addresses of a segment in memory, counted from the start of the program region. -/
def memoryRange (header : ProgramHeader) : Set Nat :=
  Set.Ico header.vaddr.toNat header.memoryStop

/-- The place of a loadable segment in the file and in memory. -/
structure Placed (fileSize : Nat) (file : FileHeader) (header : ProgramHeader) : Prop where
  inside : header.offset.toNat + header.filesz.toNat ≤ fileSize
  clear : file.Clear header.fileRange
  memory : programBase.toNat + header.vaddr.toNat + header.memsz.toNat ≤ stackBase.toNat

/-- A segment begins and ends in memory before another one begins. -/
structure Before (first later : ProgramHeader) : Prop where
  start : first.vaddr.toNat < later.vaddr.toNat
  stop : first.memoryStop ≤ later.vaddr.toNat

end ProgramHeader

namespace SectionHeader

/-- The bytes of the file that belong to a section. -/
def fileRange (header : SectionHeader) : Set Nat :=
  Set.Ico header.offset.toNat header.stop

/-- The section has bytes in the file. -/
def Stored (header : SectionHeader) : Prop :=
  header.kind ≠ noBitsSectionKind ∧ header.size ≠ 0

/-- The place of a section in the file. -/
structure Placed (fileSize : Nat) (file : FileHeader) (header : SectionHeader) : Prop where
  inside : header.stop ≤ fileSize
  before_table : header.stop ≤ file.sectionTable
  clear : file.Clear header.fileRange

/-- A section ends in the file before another one begins. -/
def Before (first later : SectionHeader) : Prop :=
  first.stop ≤ later.offset.toNat

end SectionHeader

/-- The layout of a file and of the segments and sections in it. -/
structure Object.LaidOut (file : ByteArray) (object : Object) : Prop where
  tables : object.header.TablesPlaced file.size
  segment : ∀ i (h : i < object.programHeaders.size),
    object.programHeaders[i].kind = loadSegmentKind →
      object.programHeaders[i].Placed file.size object.header
  /-- Any two loadable segments are apart in memory and in the order of the table. -/
  segments : ∀ i j (hi : i < object.programHeaders.size) (hj : j < object.programHeaders.size),
    i < j → object.programHeaders[i].kind = loadSegmentKind →
      object.programHeaders[j].kind = loadSegmentKind →
        object.programHeaders[i].Before object.programHeaders[j] ∧
          Disjoint object.programHeaders[i].memoryRange object.programHeaders[j].memoryRange
  section_zero : ∃ h : 0 < object.sections.size,
    object.sections[0].header.kind = nullSectionKind
  section_placed : ∀ i (h : i < object.sections.size), 1 ≤ i →
    object.sections[i].header.Stored → object.sections[i].header.Placed file.size object.header
  /-- Any two sections are apart in the file and in the order of the table. -/
  sections : ∀ i j (hi : i < object.sections.size) (hj : j < object.sections.size),
    1 ≤ i → i < j → object.sections[i].header.Stored → object.sections[j].header.Stored →
      object.sections[i].header.Before object.sections[j].header ∧
        Disjoint object.sections[i].header.fileRange object.sections[j].header.fileRange
  /-- There is one text, and one table of symbol names. -/
  unique : ∀ i j (hi : i < object.sections.size) (hj : j < object.sections.size),
    object.sections[i].name = object.sections[j].name →
      object.sections[i].name = textName ∨ object.sections[i].name = symbolNamesName → i = j

-- ════════════════════════════════════════════════════════════════════════
-- Header tables
-- ════════════════════════════════════════════════════════════════════════

/-- Where a range is not cut off, the check for common bytes is exact. -/
theorem disjoint_of_overlaps {a aSize b bSize : Nat} (hbound : a + aSize ≤ maxWord)
    (h : overlaps a aSize b bSize = false) :
    Disjoint (Set.Ico a (a + aSize)) (Set.Ico b (b + bSize)) := by
  rw [Set.disjoint_left]
  intro i hfirst hsecond
  simp only [Set.mem_Ico] at hfirst hsecond
  simp only [overlaps, Bool.and_eq_false_iff, decide_eq_false_iff_not] at h
  omega

theorem disjoint_of_le {a b c d : Nat} (h : b ≤ c) : Disjoint (Set.Ico a b) (Set.Ico c d) := by
  rw [Set.Ico_disjoint_Ico]
  omega

/-- A table that can be read is inside the file. -/
theorem inside_of_readTable {α : Type} [Record α] {file : ByteArray} {offset size : Nat}
    {records : Array α} (h : readTable α file offset size = .ok records) :
    offset + size ≤ file.size := by
  unfold readTable at h
  split at h
  · next hinside => exact hinside.1
  · cases h

theorem FileHeader.tables_of_check {header : FileHeader} (h : header.check = .ok ()) :
    fileHeaderSize ≤ header.programTable ∧ fileHeaderSize ≤ header.sectionTable ∧
      header.overlapsProgramTable header.sectionTable header.sectionTableSize = false := by
  obtain ⟨⟨⟩, _, h⟩ := exists_of_bind_eq_ok h
  obtain ⟨⟨⟩, _, h⟩ := exists_of_bind_eq_ok h
  unfold checkTables at h
  split at h
  · cases h
  · next hplaced =>
    simp only [not_or, Bool.not_eq_true, Nat.not_lt] at hplaced
    exact hplaced

theorem tablesPlaced_of_check {file : ByteArray} {header : FileHeader}
    {programHeaders : Array ProgramHeader} {sectionHeaders : Array SectionHeader}
    (hfile : file.size ≤ maxWord) (hcheck : header.check = .ok ())
    (hsegments : readTable ProgramHeader file header.programTable header.programTableSize =
      .ok programHeaders)
    (hsections : readTable SectionHeader file header.sectionTable header.sectionTableSize =
      .ok sectionHeaders) : header.TablesPlaced file.size := by
  obtain ⟨hprogram, hsection, hapart⟩ := FileHeader.tables_of_check hcheck
  have hstop := inside_of_readTable hsegments
  refine ⟨hprogram, hstop, hsection, inside_of_readTable hsections, ?_⟩
  exact disjoint_of_overlaps (Nat.le_trans hstop hfile) hapart

section Clear

variable {fileSize : Nat} {file : FileHeader} (htables : file.TablesPlaced fileSize)
  (hfile : fileSize ≤ maxWord)
include htables hfile

/-- A range that overlaps no header, as far as the checks can tell, has no byte of one. -/
theorem clear_of_overlaps {offset size : Nat}
    (hheader : overlaps 0 fileHeaderSize offset size = false)
    (hprogram : file.overlapsProgramTable offset size = false)
    (hsection : file.overlapsSectionTable offset size = false) :
    file.Clear (Set.Ico offset (offset + size)) where
  fileHeader := by
    have hclear := disjoint_of_overlaps (show 0 + fileHeaderSize ≤ maxWord by decide) hheader
    rwa [Nat.zero_add] at hclear
  programTable := disjoint_of_overlaps (Nat.le_trans htables.programTable_stop hfile) hprogram
  sectionTable := disjoint_of_overlaps (Nat.le_trans htables.sectionTable_stop hfile) hsection

end Clear

-- ════════════════════════════════════════════════════════════════════════
-- Segments
-- ════════════════════════════════════════════════════════════════════════

/-- The order of segments reaches past the segments between them. -/
theorem ProgramHeader.Before.trans {first second third : ProgramHeader} (h : first.Before second)
    (h' : second.Before third) : first.Before third :=
  ⟨Nat.lt_trans h.start h'.start, Nat.le_trans h.stop (Nat.le_of_lt h'.start)⟩

section Segments

variable {fileSize : Nat} {file : FileHeader} (htables : file.TablesPlaced fileSize)
  (hfile : fileSize ≤ maxWord)
include htables hfile

/-- A segment without a flaw is well placed and comes behind the one before it. -/
theorem ProgramHeader.placed_of_flaw? {previous : Option ProgramHeader} {header : ProgramHeader}
    (h : header.flaw? fileSize file previous = none) :
    header.Placed fileSize file ∧ ∀ before ∈ previous, before.Before header := by
  simp only [flaw?] at h
  split at h
  · cases h
  split at h
  · cases h
  split at h
  · cases h
  split at h
  · cases h
  split at h
  · cases h
  split at h
  · cases h
  split at h
  · cases h
  next hascending hprevious hinside hheader hprogram hsection hmemory =>
  rw [Bool.not_eq_true] at hheader hprogram hsection
  refine ⟨⟨Nat.le_of_not_lt hinside, clear_of_overlaps htables hfile hheader hprogram hsection, ?_⟩,
    fun before hbefore => ?_⟩
  · rw [memoryStop] at hmemory
    omega
  · obtain rfl := Option.mem_def.1 hbefore
    simp only [Option.any_some, decide_eq_true_eq, UInt64.le_iff_toNat_le] at hascending hprevious
    exact ⟨Nat.lt_of_not_le hascending, Nat.le_of_not_lt hprevious⟩

/-- The loadable segments of a checked table are well placed, come behind the one that the checks
began with, and are in order. -/
theorem placed_of_checkSegments {index : Nat} {previous : Option ProgramHeader}
    {headers : List ProgramHeader}
    (h : checkSegments fileSize file index previous headers = .ok ()) :
    (∀ header ∈ headers, header.kind = loadSegmentKind →
        header.Placed fileSize file ∧ ∀ before ∈ previous, before.Before header) ∧
      headers.Pairwise fun first later =>
        first.kind = loadSegmentKind → later.kind = loadSegmentKind → first.Before later := by
  induction headers generalizing index previous with
  | nil => exact ⟨fun _ hmem => absurd hmem List.not_mem_nil, .nil⟩
  | cons first headers ih =>
    rw [checkSegments] at h
    by_cases hload : first.kind = loadSegmentKind
    · rw [if_pos (show first.isLoad = true from decide_eq_true hload)] at h
      cases hflaw : first.flaw? fileSize file previous with
      | some flaw =>
        rw [hflaw] at h
        cases h
      | none =>
        rw [hflaw] at h
        obtain ⟨hplaced, hprevious⟩ := ProgramHeader.placed_of_flaw? htables hfile hflaw
        obtain ⟨hlater, hpairwise⟩ := ih h
        have hfirst (header : ProgramHeader) (hmem : header ∈ headers)
            (hkind : header.kind = loadSegmentKind) : first.Before header :=
          (hlater header hmem hkind).2 first rfl
        refine ⟨fun header hmem hkind => ?_, ?_⟩
        · rcases List.mem_cons.1 hmem with rfl | hmem
          · exact ⟨hplaced, hprevious⟩
          · refine ⟨(hlater header hmem hkind).1, fun before hbefore => ?_⟩
            exact (hprevious before hbefore).trans (hfirst header hmem hkind)
        · exact .cons (fun header hmem _ hkind => hfirst header hmem hkind) hpairwise
    · rw [if_neg (show ¬first.isLoad = true from fun h => hload (of_decide_eq_true h))] at h
      obtain ⟨hlater, hpairwise⟩ := ih h
      refine ⟨fun header hmem hkind => ?_, ?_⟩
      · rcases List.mem_cons.1 hmem with rfl | hmem
        · exact absurd hkind hload
        · exact hlater header hmem hkind
      · exact .cons (fun header _ hkind _ => absurd hkind hload) hpairwise

end Segments

-- ════════════════════════════════════════════════════════════════════════
-- Sections
-- ════════════════════════════════════════════════════════════════════════

/-- What the checks of a section establish. -/
theorem SectionHeader.rules_of_flaw? {fileSize dataEnd : Nat} {file : FileHeader}
    {header : SectionHeader} (h : header.flaw? fileSize file dataEnd = none) :
    header.stop ≤ maxWord ∧ fileHeaderSize ≤ header.offset.toNat ∧
      file.overlapsProgramTable header.offset.toNat header.size.toNat = false ∧
      file.overlapsSectionTable header.offset.toNat header.size.toNat = false ∧
      header.stop ≤ fileSize ∧
      (header.size ≠ 0 →
        dataEnd ≤ header.offset.toNat ∧ header.stop ≤ file.sectionTable) := by
  simp only [flaw?] at h
  split at h
  · cases h
  split at h
  · cases h
  split at h
  · cases h
  split at h
  · cases h
  split at h
  · cases h
  split at h
  · cases h
  next hend hstart hprogram hsection hinside horder =>
  rw [Bool.not_eq_true] at hprogram hsection
  refine ⟨Nat.le_of_not_lt hend, Nat.le_of_not_lt hstart, hprogram, hsection,
    Nat.le_of_not_lt hinside, fun hsize => ?_⟩
  have hpositive : header.size.toNat ≠ 0 := fun hzero => hsize (UInt64.toNat_inj.1 hzero)
  omega

section Sections

variable {fileSize : Nat} {file : FileHeader} (htables : file.TablesPlaced fileSize)
  (hfile : fileSize ≤ maxWord)
include htables hfile

/-- A section without a flaw is well placed and comes behind the data before it. -/
theorem SectionHeader.placed_of_flaw? {dataEnd : Nat} {header : SectionHeader}
    (h : header.flaw? fileSize file dataEnd = none) (hsize : header.size ≠ 0) :
    header.Placed fileSize file ∧ dataEnd ≤ header.offset.toNat := by
  obtain ⟨_, hstart, hprogram, hsection, hinside, horder⟩ := rules_of_flaw? h
  obtain ⟨hdata, htable⟩ := horder hsize
  refine ⟨⟨hinside, htable, ?_⟩, hdata⟩
  refine clear_of_overlaps htables hfile ?_ hprogram hsection
  rw [Bool.eq_false_iff]
  intro hoverlap
  simp only [overlaps, Bool.and_eq_true, decide_eq_true_eq] at hoverlap
  omega

/-- The stored sections of a checked table are well placed, come behind the data that the checks
began with, and are in order. -/
theorem placed_of_checkSections {index dataEnd : Nat} {headers : List SectionHeader}
    (h : checkSections fileSize file index dataEnd headers = .ok ()) :
    (∀ header ∈ headers, header.Stored →
        header.Placed fileSize file ∧ dataEnd ≤ header.offset.toNat) ∧
      headers.Pairwise fun first later => first.Stored → later.Stored → first.Before later := by
  induction headers generalizing index dataEnd with
  | nil => exact ⟨fun _ hmem => absurd hmem List.not_mem_nil, .nil⟩
  | cons first headers ih =>
    rw [checkSections] at h
    by_cases hkind : first.kind = noBitsSectionKind
    · have hnone : ¬first.hasData = true := fun hdata => of_decide_eq_true hdata hkind
      rw [if_neg hnone] at h
      obtain ⟨hlater, hpairwise⟩ := ih h
      refine ⟨fun header hmem hstored => ?_, ?_⟩
      · rcases List.mem_cons.1 hmem with rfl | hmem
        · exact absurd hkind hstored.1
        · exact hlater header hmem hstored
      · exact .cons (fun header _ hstored _ => absurd hkind hstored.1) hpairwise
    · have hdata : first.hasData = true := decide_eq_true hkind
      rw [if_pos hdata] at h
      cases hflaw : first.flaw? fileSize file dataEnd with
      | some flaw =>
        rw [hflaw] at h
        cases h
      | none =>
        rw [hflaw] at h
        dsimp only at h
        by_cases hsize : first.size = 0
        · rw [if_pos hsize] at h
          obtain ⟨hlater, hpairwise⟩ := ih h
          refine ⟨fun header hmem hstored => ?_, ?_⟩
          · rcases List.mem_cons.1 hmem with rfl | hmem
            · exact absurd hsize hstored.2
            · exact hlater header hmem hstored
          · exact .cons (fun header _ hstored _ => absurd hsize hstored.2) hpairwise
        · rw [if_neg hsize] at h
          obtain ⟨hplaced, hfirst⟩ := SectionHeader.placed_of_flaw? htables hfile hflaw hsize
          obtain ⟨hlater, hpairwise⟩ := ih h
          refine ⟨fun header hmem hstored => ?_, ?_⟩
          · rcases List.mem_cons.1 hmem with rfl | hmem
            · exact ⟨hplaced, hfirst⟩
            · obtain ⟨hheader, hbehind⟩ := hlater header hmem hstored
              refine ⟨hheader, Nat.le_trans hfirst (Nat.le_trans ?_ hbehind)⟩
              exact Nat.le_add_right _ _
          · exact .cons (fun header hmem _ hstored => (hlater header hmem hstored).2) hpairwise

end Sections

-- ════════════════════════════════════════════════════════════════════════
-- Names
-- ════════════════════════════════════════════════════════════════════════

/-- Naming sections keeps their headers and their order. -/
theorem headers_of_nameSections {file : ByteArray} {names : SectionHeader}
    {named sections : Array Section} {headers : List SectionHeader}
    (h : nameSections file names named headers = .ok sections) :
    sections.toList.map (·.header) = named.toList.map (·.header) ++ headers := by
  induction headers generalizing named with
  | nil =>
    obtain rfl := Except.ok.inj h
    rw [List.append_nil]
  | cons header headers ih =>
    rw [nameSections] at h
    split at h
    · cases h
    · split at h
      · cases h
      · rw [ih h, Array.toList_push, List.map_append, List.map_singleton, List.append_assoc,
          List.singleton_append]

/-- A name that only one section may have is not given twice. -/
theorem names_of_nameSections {file : ByteArray} {names : SectionHeader}
    {named sections : Array Section} {headers : List SectionHeader}
    (h : nameSections file names named headers = .ok sections)
    (hnamed : named.toList.Pairwise fun first later =>
      isUniqueName first.name = true → first.name ≠ later.name) :
    sections.toList.Pairwise fun first later =>
      isUniqueName first.name = true → first.name ≠ later.name := by
  induction headers generalizing named with
  | nil =>
    obtain rfl := Except.ok.inj h
    exact hnamed
  | cons header headers ih =>
    rw [nameSections] at h
    split at h
    · cases h
    · next name _ =>
      split at h
      · cases h
      · next hfresh =>
        refine ih h ?_
        rw [Array.toList_push, List.pairwise_append]
        refine ⟨hnamed, List.pairwise_singleton _ _, fun first hfirst later hlater => ?_⟩
        obtain rfl := List.mem_singleton.1 hlater
        intro hunique hsame
        have hname : first.name = name := hsame
        have htaken : named.any (·.name = name) = true :=
          Array.any_eq_true'.2 ⟨first, Array.mem_toList_iff.1 hfirst, decide_eq_true hname⟩
        rw [htaken, ← hname, hunique] at hfresh
        exact hfresh rfl

/-- The headers of the sections are those of the table, and the table has been checked. -/
theorem checkSectionTable_of_readSections {file : ByteArray} {header : FileHeader}
    {sections : Array Section} (h : readSections file header = .ok sections) :
    checkSectionTable file.size header (sections.toList.map (·.header)) = .ok () := by
  obtain ⟨headers, hheaders, h⟩ := exists_of_bind_eq_ok h
  obtain ⟨table, _, hchecks⟩ := exists_of_bind_eq_ok hheaders
  obtain ⟨⟨⟩, hcheck, hsame⟩ := exists_of_bind_eq_ok hchecks
  obtain rfl := Except.ok.inj hsame
  split at h
  · cases h
  · split at h
    · rwa [headers_of_nameSections h]
    · cases h

theorem names_of_readSections {file : ByteArray} {header : FileHeader} {sections : Array Section}
    (h : readSections file header = .ok sections) :
    sections.toList.Pairwise fun first later =>
      isUniqueName first.name = true → first.name ≠ later.name := by
  obtain ⟨headers, _, h⟩ := exists_of_bind_eq_ok h
  split at h
  · cases h
  · split at h
    · exact names_of_nameSections h .nil
    · cases h

-- ════════════════════════════════════════════════════════════════════════
-- Objects
-- ════════════════════════════════════════════════════════════════════════

namespace Object

variable {file : ByteArray} {object : Object}

theorem ReadFrom.size_le_maxWord (h : object.ReadFrom file) : file.size ≤ maxWord :=
  Nat.le_trans h.fileSize (by decide)

theorem ReadFrom.tablesPlaced (h : object.ReadFrom file) :
    object.header.TablesPlaced file.size := by
  obtain ⟨segments, hsegments, _⟩ := exists_of_bind_eq_ok h.programHeaders
  obtain ⟨sections, hsections, _⟩ := exists_of_bind_eq_ok h.sections
  obtain ⟨table, htable, _⟩ := exists_of_bind_eq_ok hsections
  exact tablesPlaced_of_check h.size_le_maxWord h.checked hsegments htable

theorem ReadFrom.checkSegments (h : object.ReadFrom file) :
    Elf.checkSegments file.size object.header 0 none object.programHeaders.toList = .ok () := by
  obtain ⟨table, _, hchecks⟩ := exists_of_bind_eq_ok h.programHeaders
  obtain ⟨⟨⟩, hcheck, hsame⟩ := exists_of_bind_eq_ok hchecks
  obtain rfl := Except.ok.inj hsame
  exact hcheck

/-- The section table begins with the header of no section; the others have been checked. -/
theorem ReadFrom.checkSections (h : object.ReadFrom file) :
    ∃ first rest, object.sections.toList.map (·.header) = first :: rest ∧
      first.kind = nullSectionKind ∧
        Elf.checkSections file.size object.header 1 0 rest = .ok () := by
  have hcheck := checkSectionTable_of_readSections h.sections
  cases hlist : object.sections.toList.map (·.header) with
  | nil =>
    rw [hlist] at hcheck
    cases hcheck
  | cons first rest =>
    rw [hlist, checkSectionTable] at hcheck
    split at hcheck
    · next hkind => exact ⟨first, rest, rfl, hkind, hcheck⟩
    · cases hcheck

/-- Where a section stands in the list of headers. -/
theorem header_getElem {first : SectionHeader} {rest : List SectionHeader}
    (hlist : object.sections.toList.map (·.header) = first :: rest) :
    object.sections.size = rest.length + 1 ∧
      ∀ i (hi : i < object.sections.size) (hi' : i < (first :: rest).length),
        object.sections[i].header = (first :: rest)[i] := by
  refine ⟨by simpa using congrArg List.length hlist, fun i hi hi' => ?_⟩
  simp only [← hlist, List.getElem_map, Array.getElem_toList]

theorem ReadFrom.sections_placed (h : object.ReadFrom file) :
    (∀ i (hi : i < object.sections.size), 1 ≤ i → object.sections[i].header.Stored →
        object.sections[i].header.Placed file.size object.header) ∧
      ∀ i j (hi : i < object.sections.size) (hj : j < object.sections.size), 1 ≤ i → i < j →
        object.sections[i].header.Stored → object.sections[j].header.Stored →
          object.sections[i].header.Before object.sections[j].header := by
  obtain ⟨first, rest, hlist, _, hcheck⟩ := h.checkSections
  obtain ⟨hplaced, hpairwise⟩ := placed_of_checkSections h.tablesPlaced h.size_le_maxWord hcheck
  obtain ⟨hlength, hheader⟩ := header_getElem hlist
  -- Section `k + 1` has the `k`-th of the headers that have been checked.
  have hrest (k : Nat) (hk : k + 1 < object.sections.size) (hk' : k < rest.length) :
      object.sections[k + 1].header = rest[k] :=
    hheader (k + 1) hk (by simpa [hlength] using hk)
  constructor
  · intro i hi hpos hstored
    obtain ⟨k, rfl⟩ := Nat.exists_eq_add_of_le' hpos
    rw [hrest k hi (by omega)] at hstored ⊢
    exact (hplaced _ (List.getElem_mem _) hstored).1
  · intro i j hi hj hpos hlt hfirst hlater
    obtain ⟨k, rfl⟩ := Nat.exists_eq_add_of_le' hpos
    obtain ⟨l, rfl⟩ := Nat.exists_eq_add_of_le' (Nat.le_of_lt (Nat.lt_of_le_of_lt hpos hlt))
    rw [hrest k hi (by omega)] at hfirst ⊢
    rw [hrest l hj (by omega)] at hlater ⊢
    exact List.pairwise_iff_getElem.1 hpairwise k l _ _ (Nat.lt_of_add_lt_add_right hlt) hfirst
      hlater

theorem ReadFrom.segments_placed (h : object.ReadFrom file) :
    (∀ i (hi : i < object.programHeaders.size),
        object.programHeaders[i].kind = loadSegmentKind →
          object.programHeaders[i].Placed file.size object.header) ∧
      ∀ i j (hi : i < object.programHeaders.size) (hj : j < object.programHeaders.size), i < j →
        object.programHeaders[i].kind = loadSegmentKind →
          object.programHeaders[j].kind = loadSegmentKind →
            object.programHeaders[i].Before object.programHeaders[j] := by
  obtain ⟨hplaced, hpairwise⟩ :=
    placed_of_checkSegments h.tablesPlaced h.size_le_maxWord h.checkSegments
  exact ⟨fun i hi hload => (hplaced _ (Array.getElem_mem_toList hi) hload).1,
    fun i j hi hj hlt => List.pairwise_iff_getElem.1 hpairwise i j hi hj hlt⟩

theorem ReadFrom.names_unique (h : object.ReadFrom file) {i j : Nat}
    (hi : i < object.sections.size) (hj : j < object.sections.size)
    (hsame : object.sections[i].name = object.sections[j].name)
    (hunique : isUniqueName object.sections[i].name = true) : i = j := by
  have hnames := List.pairwise_iff_getElem.1 (names_of_readSections h.sections)
  rcases Nat.lt_trichotomy i j with hlt | heq | hgt
  · exact absurd hsame (hnames i j hi hj hlt hunique)
  · exact heq
  · exact absurd hsame.symm (hnames j i hj hi hgt (hsame ▸ hunique))

/-- Accepted files are laid out as the format asks for. -/
theorem laidOut_of_ofFile (h : Object.ofFile file = .ok object) : object.LaidOut file where
  tables := (readFrom_of_ofFile h).tablesPlaced
  segment := (readFrom_of_ofFile h).segments_placed.1
  segments i j hi hj hlt hfirst hlater := by
    have hbefore := (readFrom_of_ofFile h).segments_placed.2 i j hi hj hlt hfirst hlater
    exact ⟨hbefore, disjoint_of_le hbefore.stop⟩
  section_zero := by
    obtain ⟨first, rest, hlist, hkind, _⟩ := (readFrom_of_ofFile h).checkSections
    obtain ⟨hlength, hheader⟩ := header_getElem hlist
    have hpos : 0 < object.sections.size := by omega
    refine ⟨hpos, ?_⟩
    rw [hheader 0 hpos (Nat.zero_lt_succ _)]
    exact hkind
  section_placed := (readFrom_of_ofFile h).sections_placed.1
  sections i j hi hj hpos hlt hfirst hlater := by
    have hbefore := (readFrom_of_ofFile h).sections_placed.2 i j hi hj hpos hlt hfirst hlater
    exact ⟨hbefore, disjoint_of_le hbefore⟩
  unique i j hi hj hsame hunique := by
    refine (readFrom_of_ofFile h).names_unique hi hj hsame ?_
    simpa [isUniqueName] using hunique

/-- A file with the instruction `exit` and two loadable segments, the second of which has no bytes
in the file. -/
def twoSegments : ByteArray :=
  let names := Link.Blueprint.stringTable [".text", ".shstrtab"]
  let header : FileHeader :=
    { ident := Link.Blueprint.ident, kind := sharedObjectKind, machine := bpfMachine, version := 1
      entry := 176, phoff := 64, shoff := 208, flags := 0, ehsize := 64, phentsize := 56, phnum := 2
      shentsize := 64, shnum := 3, shstrndx := 2 }
  let text : Link.SectionPlan :=
    { name := ".text", kind := Link.Blueprint.progBitsKind, offset := 176, size := 8, link := 0 }
  let nameTable : Link.SectionPlan :=
    { name := ".shstrtab", kind := stringTableKind, offset := 184, size := names.size, link := 0 }
  encodeTable [header] ++
    encodeTable
      [Link.Blueprint.programHeader { offset := 176, vaddr := 176, filesz := 8, memsz := 8 },
       Link.Blueprint.programHeader { offset := 184, vaddr := 184, filesz := 0, memsz := 4096 }] ++
    encodeText [.new 0x95 0 0 0 0] ++ Bytes.padTo names 24 ++
    encodeTable
      [Link.Blueprint.nullSectionHeader, Link.Blueprint.sectionHeader text 1,
       Link.Blueprint.sectionHeader nameTable 7]

theorem laidOut_of_twoSegments :
    ∃ object, Object.ofFile twoSegments = .ok object ∧ object.programHeaders.size = 2 ∧
      object.LaidOut twoSegments := by
  have hread : (Object.ofFile twoSegments).toOption.any
      (fun object => decide (object.programHeaders.size = 2)) = true := by
    decide +kernel
  cases hobject : Object.ofFile twoSegments with
  | error error =>
    rw [hobject] at hread
    cases hread
  | ok object =>
    rw [hobject, Except.toOption, Option.any_some] at hread
    exact ⟨object, rfl, of_decide_eq_true hread, laidOut_of_ofFile hobject⟩

end Object

end SbfMachine.Elf
