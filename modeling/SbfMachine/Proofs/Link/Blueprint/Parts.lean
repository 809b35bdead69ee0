import SbfMachine.Link.Blueprint
import SbfMachine.Proofs.Elf.Encoding
import SbfMachine.Proofs.Elf.Strings

/-!
# The parts of a file that is written

The parts of a file come one after the other, so each of them stands where it was placed, and the
file ends with the last one. A string table holds each of its names at the offset that is counted
for it.

## Main definitions

- `InOrder` — the parts of a list do not overlap
- `Blueprint.HeldBy` — a file holds all parts of a blueprint

## Main statements

- `Blueprint.holds_stringTable` — the names of a string table
- `Blueprint.heldBy_build` — a file holds the parts of its blueprint
- `Blueprint.size_build` — a file ends with its section headers
-/

namespace SbfMachine.Link

open Bytes (Holds)
open Elf

namespace Blueprint

-- ════════════════════════════════════════════════════════════════════════
-- Placing parts
-- ════════════════════════════════════════════════════════════════════════

/-- The parts come one after the other, the first of them not before `start`. -/
def InOrder (start : Nat) : List (Nat × ByteArray) → Prop
  | [] => True
  | (offset, part) :: rest => start ≤ offset ∧ InOrder (offset + part.size) rest

theorem size_place {file part : ByteArray} {offset : Nat} (h : file.size ≤ offset) :
    (place file offset part).size = offset + part.size := by
  rw [place, Bytes.padTo, ByteArray.size_append, ByteArray.size_append, Bytes.size_zeros]
  omega

theorem holds_place {file part : ByteArray} {offset : Nat} (h : file.size ≤ offset) :
    Holds (place file offset part) offset part := by
  have hplaced := Bytes.holds_append_right (Bytes.padTo file offset) part
  have hsize : (Bytes.padTo file offset).size = offset := by
    rw [Bytes.padTo, ByteArray.size_append, Bytes.size_zeros]
    omega
  rwa [hsize] at hplaced

/-- What a file holds it still holds when more parts are placed behind it. -/
theorem holds_of_foldl_place {parts : List (Nat × ByteArray)} {file part : ByteArray} {offset : Nat}
    (h : Holds file offset part) :
    Holds (parts.foldl (fun file (offset, part) => place file offset part) file) offset part := by
  induction parts generalizing file with
  | nil => exact h
  | cons next parts ih => exact ih ((h.append _).append _)

/-- Parts in order stand where they were placed. -/
theorem holds_foldl_place {parts : List (Nat × ByteArray)} {file : ByteArray}
    (h : InOrder file.size parts) {offset : Nat} {part : ByteArray}
    (hpart : (offset, part) ∈ parts) :
    Holds (parts.foldl (fun file (offset, part) => place file offset part) file) offset part := by
  induction parts generalizing file with
  | nil => exact absurd hpart List.not_mem_nil
  | cons next parts ih =>
    obtain ⟨hfirst, hrest⟩ := h
    rcases List.mem_cons.1 hpart with heq | hlater
    · subst heq
      rw [List.foldl_cons]
      exact holds_of_foldl_place (holds_place hfirst)
    · exact ih (by rwa [size_place hfirst]) hlater

/-- A file ends with the last of its parts. -/
theorem size_foldl_place {parts : List (Nat × ByteArray)} {file part : ByteArray} {offset : Nat}
    (h : InOrder file.size (parts ++ [(offset, part)])) :
    ((parts ++ [(offset, part)]).foldl (fun file (offset, part) => place file offset part)
      file).size = offset + part.size := by
  induction parts generalizing file with
  | nil => exact size_place h.1
  | cons next parts ih => exact ih (by rw [size_place h.1]; exact h.2)

-- ════════════════════════════════════════════════════════════════════════
-- String tables
-- ════════════════════════════════════════════════════════════════════════

/-- The names of a string table, each with a zero byte behind it. -/
def nameBytes : List String → ByteArray
  | [] => ByteArray.empty
  | name :: rest => terminated name ++ nameBytes rest

theorem foldl_name_eq (names : List String) (table : ByteArray) :
    names.foldl (fun table name => (table ++ name.toUTF8).push 0) table =
      table ++ nameBytes names := by
  induction names generalizing table with
  | nil => exact ByteArray.append_empty.symm
  | cons name names ih =>
    rw [List.foldl_cons, ih, nameBytes, terminated, Bytes.push_eq_append, Bytes.push_eq_append,
      ByteArray.append_assoc, ByteArray.append_assoc, ByteArray.append_assoc]

theorem stringTable_eq (names : List String) :
    stringTable names = ByteArray.empty.push 0 ++ nameBytes names :=
  foldl_name_eq names _

theorem length_stringOffsets (start : Nat) (names : List String) :
    (stringOffsets start names).length = names.length := by
  induction names generalizing start with
  | nil => rfl
  | cons name names ih => rw [stringOffsets, List.length_cons, ih, List.length_cons]

theorem holds_of_nameBytes {names : List String} {table : ByteArray} {start i : Nat} {name : String}
    (h : Holds table start (nameBytes names)) (hname : names[i]? = some name) :
    ∃ offset, (stringOffsets start names)[i]? = some offset ∧
      Holds table offset (terminated name) := by
  induction names generalizing start i with
  | nil => cases hname
  | cons first names ih =>
    rw [nameBytes, Bytes.holds_append_iff, size_terminated, ← Nat.add_assoc] at h
    cases i with
    | zero =>
      obtain rfl := Option.some.inj hname
      exact ⟨start, rfl, h.1⟩
    | succ i => exact ih h.2 hname

/-- Each name of a string table stands at the offset that is counted for it. -/
theorem holds_stringTable {names : List String} {i : Nat} {name : String}
    (h : names[i]? = some name) :
    ∃ offset, (stringOffsets 1 names)[i]? = some offset ∧
      Holds (stringTable names) offset (terminated name) := by
  rw [stringTable_eq]
  exact holds_of_nameBytes (Bytes.holds_append_right _ _) h

/-- A string table begins with the empty name. -/
theorem holds_stringTable_empty (names : List String) :
    Holds (stringTable names) 0 (terminated "") := by
  rw [stringTable_eq]
  exact (Bytes.holds_self _).append _

-- ════════════════════════════════════════════════════════════════════════
-- Sizes
-- ════════════════════════════════════════════════════════════════════════

variable (blueprint : Blueprint)

theorem size_textWithAddress (text : ByteArray) (relocation : RelocationPlan) :
    (blueprint.textWithAddress text relocation).size = text.size := by
  cases relocation <;> simp only [textWithAddress, Bytes.size_writeLE]

@[simp]
theorem size_textSection : blueprint.textSection.size = blueprint.text.size :=
  Bytes.size_foldl blueprint.size_textWithAddress _ _

@[simp]
theorem size_rodataSection : blueprint.rodataSection.size = blueprint.rodata.size := by
  refine Bytes.size_foldl (fun rodata relocation => ?_) _ _
  cases relocation <;> simp only [rodataWithAddress]
  split <;> rw [Bytes.size_writeLE]

theorem length_symbolRecords :
    blueprint.symbolRecords.length = blueprint.symbols.length + 1 := by
  rw [symbolRecords, List.length_cons, List.length_zipWith, length_stringOffsets, List.length_map,
    Nat.min_self]

theorem size_symbolSection :
    blueprint.symbolSection.size = 24 * (blueprint.symbols.length + 1) := by
  rw [symbolSection, size_encodeTable fun symbol _ => symbol.faithful, length_symbolRecords]
  rfl

theorem size_relocationSection :
    blueprint.relocationSection.size = 16 * blueprint.relocations.length := by
  rw [relocationSection, size_encodeTable fun relocation _ => relocation.faithful, List.length_map]
  rfl

theorem size_dynamicTable : (encodeTable blueprint.dynamicEntries).size = 96 := by
  rw [size_encodeTable fun entry _ => entry.faithful]
  have hlength : blueprint.dynamicEntries.length = 6 := by
    rw [dynamicEntries]
    cases blueprint.relocations.isEmpty <;> rfl
  rw [hlength]
  rfl

theorem size_sectionHeaderTable : (encodeTable blueprint.sectionHeaders).size = 512 := by
  rw [size_encodeTable fun header _ => header.faithful]
  rfl

theorem fileHeader_faithful : Record.Faithful blueprint.fileHeader :=
  FileHeader.faithful rfl

theorem size_fileHeader : (encodeTable [blueprint.fileHeader]).size = 64 := by
  rw [size_encodeTable fun header hheader => ?_]
  · rfl
  · obtain rfl := List.mem_singleton.1 hheader
    exact blueprint.fileHeader_faithful

-- ════════════════════════════════════════════════════════════════════════
-- The file
-- ════════════════════════════════════════════════════════════════════════

/-- The file holds all parts of the blueprint. -/
structure HeldBy (file : ByteArray) : Prop where
  fileHeader : Holds file 0 (encodeTable [blueprint.fileHeader])
  programHeaders : Holds file 64 (encodeTable [programHeader blueprint.mainSegment])
  text : Holds file textOffset blueprint.textSection
  rodata : Holds file blueprint.rodataOffset blueprint.rodataSection
  dynamic : Holds file blueprint.dynamicOffset (encodeTable blueprint.dynamicEntries)
  symbols : Holds file blueprint.symbolOffset blueprint.symbolSection
  symbolNames : Holds file blueprint.symbolNamesOffset blueprint.symbolNames
  relocations : Holds file blueprint.relocationOffset blueprint.relocationSection
  sectionNames : Holds file blueprint.sectionNamesOffset sectionNameTable
  sectionHeaders : Holds file blueprint.sectionHeadersOffset (encodeTable blueprint.sectionHeaders)

variable {blueprint}

theorem le_align8 (n : Nat) : n ≤ Bytes.align8 n := by
  rw [Bytes.align8]
  omega

theorem parts_eq (hsegments : blueprint.segments = []) :
    blueprint.parts =
      [(0, encodeTable [blueprint.fileHeader]),
       (64, encodeTable [programHeader blueprint.mainSegment]),
       (textOffset, blueprint.textSection),
       (blueprint.rodataOffset, blueprint.rodataSection),
       (blueprint.dynamicOffset, encodeTable blueprint.dynamicEntries),
       (blueprint.symbolOffset, blueprint.symbolSection),
       (blueprint.symbolNamesOffset, blueprint.symbolNames),
       (blueprint.relocationOffset, blueprint.relocationSection),
       (blueprint.sectionNamesOffset, sectionNameTable)] ++
      [(blueprint.sectionHeadersOffset, encodeTable blueprint.sectionHeaders)] := by
  simp only [parts, programHeadersOffset, programHeaders, hsegments, List.isEmpty_nil, if_true]
  rfl

/-- Each part begins where the one before it ends, or at the next multiple of eight. -/
theorem inOrder_parts (hsegments : blueprint.segments = []) :
    InOrder ByteArray.empty.size blueprint.parts := by
  have hprogram : (encodeTable [programHeader blueprint.mainSegment]).size = 56 := by
    rw [size_encodeTable fun header _ => header.faithful]
    rfl
  have htext := le_align8 blueprint.text.size
  have hrodata := le_align8 (blueprint.rodataOffset + blueprint.rodata.size)
  have hnames := le_align8 (blueprint.symbolNamesOffset + blueprint.symbolNames.size)
  have hheaders := le_align8 (blueprint.sectionNamesOffset + sectionNameTable.size)
  rw [parts_eq hsegments]
  simp only [List.cons_append, List.nil_append, InOrder, size_fileHeader, hprogram,
    size_textSection, size_rodataSection, size_dynamicTable, and_true]
  refine ⟨Nat.le_refl 0, by decide, by decide, ?_, ?_, ?_, ?_, ?_, ?_, ?_⟩
  · rw [rodataOffset]
    omega
  · rwa [dynamicOffset]
  · exact Nat.le_refl _
  · exact Nat.le_refl _
  · rwa [relocationOffset]
  · exact Nat.le_refl _
  · rwa [sectionHeadersOffset]

/-- A file holds the parts of its blueprint. -/
theorem heldBy_build (hsegments : blueprint.segments = []) : blueprint.HeldBy blueprint.build := by
  have hheld {offset : Nat} {part : ByteArray} (hpart : (offset, part) ∈ blueprint.parts) :
      Holds blueprint.build offset part := holds_foldl_place (inOrder_parts hsegments) hpart
  constructor
  all_goals
    apply hheld
    rw [parts_eq hsegments]
    simp only [List.cons_append, List.nil_append, List.mem_cons, true_or, or_true]

/-- A file ends with its section headers. -/
theorem size_build (hsegments : blueprint.segments = []) :
    blueprint.build.size = blueprint.sectionHeadersOffset + 512 := by
  have hparts := inOrder_parts hsegments
  rw [parts_eq hsegments] at hparts
  rw [build, parts_eq hsegments, size_foldl_place hparts, size_sectionHeaderTable]

end Blueprint

end SbfMachine.Link
