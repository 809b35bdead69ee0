import SbfMachine.Elf.Object
import SbfMachine.Proofs.Outcomes

/-!
# What the checks of a file accept

Ranges that follow one another do not overlap, so a file whose parts follow one another passes the
checks of its headers; sections with names of their own can be named. Conversely each part of an
object has been read from its file, once the parts that tell where it stands had been read and
checked.

## Main definitions

- `SectionsInOrder` — the data of the sections comes one after the other
- `Object.ReadFrom` — where the parts of an object come from

## Main statements

- `overlaps_eq_false` — ranges that follow one another
- `checkSections_eq_ok` — sections in order pass their checks
- `nameSections_eq_ok` — sections with different names are named
- `Object.readFrom_of_ofFile` — what can be read has been read part by part
-/

namespace SbfMachine.Elf

-- ════════════════════════════════════════════════════════════════════════
-- Ranges and headers
-- ════════════════════════════════════════════════════════════════════════

theorem overlaps_eq_false {a aSize b bSize : Nat} (h : a + aSize ≤ b ∨ b + bSize ≤ a) :
    overlaps a aSize b bSize = false := by
  rw [Bool.eq_false_iff]
  intro hoverlap
  simp only [overlaps, Bool.and_eq_true, decide_eq_true_eq] at hoverlap
  omega

theorem FileHeader.checkTables_eq_ok {header : FileHeader}
    (hprogram : fileHeaderSize ≤ header.programTable)
    (hafter : header.programTable + header.programTableSize ≤ header.sectionTable) :
    header.checkTables = .ok () := by
  have hsection : fileHeaderSize ≤ header.sectionTable := by omega
  rw [checkTables, if_neg]
  simp only [overlapsProgramTable, overlaps_eq_false (.inl hafter), Bool.false_eq_true, or_false]
  omega

/-- The only loadable segment of a file is accepted if it lies between the two header tables. -/
theorem ProgramHeader.flaw?_eq_none {fileSize : Nat} {file : FileHeader} {header : ProgramHeader}
    (hfile : fileHeaderSize ≤ header.offset.toNat)
    (hbefore : file.programTable + file.programTableSize ≤ header.offset.toNat)
    (hafter : header.offset.toNat + header.filesz.toNat ≤ file.sectionTable)
    (hinside : header.offset.toNat + header.filesz.toNat ≤ fileSize)
    (hmemory : programBase.toNat + header.memoryStop ≤ stackBase.toNat) :
    header.flaw? fileSize file none = none := by
  have hheader : overlaps 0 fileHeaderSize header.offset.toNat header.filesz.toNat = false :=
    overlaps_eq_false (.inl (by omega))
  have htable : file.overlapsProgramTable header.offset.toNat header.filesz.toNat = false :=
    overlaps_eq_false (.inl hbefore)
  have hsections : file.overlapsSectionTable header.offset.toNat header.filesz.toNat = false :=
    overlaps_eq_false (.inr hafter)
  simp only [flaw?, Option.any_none, Bool.false_eq_true, if_false, hheader, htable, hsections,
    if_neg (Nat.not_lt.2 hinside), if_neg (Nat.not_lt.2 hmemory)]

-- ════════════════════════════════════════════════════════════════════════
-- Sections
-- ════════════════════════════════════════════════════════════════════════

/-- The data of the sections comes one after the other, from `start` on and not beyond `stop`. -/
def SectionsInOrder (start stop : Nat) : List SectionHeader → Prop
  | [] => start ≤ stop
  | header :: rest => start ≤ header.offset.toNat ∧ SectionsInOrder header.stop stop rest

theorem SectionsInOrder.start_le {start stop : Nat} {headers : List SectionHeader}
    (h : SectionsInOrder start stop headers) : start ≤ stop := by
  induction headers generalizing start with
  | nil => exact h
  | cons header headers ih =>
    have hrest := ih h.2
    have hfirst := h.1
    rw [SectionHeader.stop] at hrest
    omega

theorem SectionHeader.flaw?_eq_none {fileSize dataEnd : Nat} {file : FileHeader}
    {header : SectionHeader} (hstart : fileHeaderSize ≤ header.offset.toNat)
    (hdata : dataEnd ≤ header.offset.toNat)
    (hbefore : file.programTable + file.programTableSize ≤ header.offset.toNat)
    (hafter : header.stop ≤ file.sectionTable) (hinside : header.stop ≤ fileSize)
    (hfile : fileSize ≤ maxWord) : header.flaw? fileSize file dataEnd = none := by
  have htable : file.overlapsProgramTable header.offset.toNat header.size.toNat = false :=
    overlaps_eq_false (.inl hbefore)
  have hsections : file.overlapsSectionTable header.offset.toNat header.size.toNat = false :=
    overlaps_eq_false (.inr hafter)
  have horder : ¬(header.size.toNat ≠ 0 ∧
      (header.offset.toNat < dataEnd ∨ file.sectionTable < header.stop)) := by omega
  simp only [flaw?, htable, hsections, Bool.false_eq_true, if_false, if_neg horder,
    if_neg (Nat.not_lt.2 (Nat.le_trans hinside hfile)), if_neg (Nat.not_lt.2 hstart),
    if_neg (Nat.not_lt.2 hinside)]

/-- Sections in order, behind the program headers and before the section headers, pass their
checks. -/
theorem checkSections_eq_ok {fileSize : Nat} {file : FileHeader} {start : Nat}
    {headers : List SectionHeader} (h : SectionsInOrder start file.sectionTable headers)
    (hstart : fileHeaderSize ≤ start) (hbefore : file.programTable + file.programTableSize ≤ start)
    (hinside : file.sectionTable ≤ fileSize) (hfile : fileSize ≤ maxWord) (index : Nat)
    {dataEnd : Nat} (hdata : dataEnd ≤ start) :
    checkSections fileSize file index dataEnd headers = .ok () := by
  induction headers generalizing start index dataEnd with
  | nil => rfl
  | cons header headers ih =>
    obtain ⟨hfirst, hrest⟩ := h
    have hstop := hrest.start_le
    have hlength : header.offset.toNat ≤ header.stop := Nat.le_add_right _ _
    have hflaw : header.flaw? fileSize file dataEnd = none :=
      SectionHeader.flaw?_eq_none (by omega) (by omega) (by omega) hstop (by omega) hfile
    rw [checkSections, hflaw]
    dsimp only
    split
    · exact ih hrest (by omega) (by omega) _ (by split <;> omega)
    · exact ih hrest (by omega) (by omega) _ (by omega)

/-- Sections are named if their names can be read and are different from one another. -/
theorem nameSections_eq_ok {file : ByteArray} {names : SectionHeader} {sections : List Section}
    {named : List Section}
    (hread : ∀ item ∈ sections,
      readString file names item.header.name sectionNameLimit = .ok item.name)
    (hnames : ((named ++ sections).map (·.name)).Nodup) :
    nameSections file names named.toArray (sections.map (·.header)) =
      .ok (named ++ sections).toArray := by
  induction sections generalizing named with
  | nil => rw [List.map_nil, nameSections, List.append_nil]
  | cons item sections ih =>
    have hnew : (named.toArray.any (·.name = item.name)) = false := by
      rw [List.any_toArray, List.any_eq_false]
      intro other hother hsame
      have hname : other.name = item.name := of_decide_eq_true hsame
      rw [List.map_append, List.nodup_append] at hnames
      exact hnames.2.2 _ (List.mem_map_of_mem hother) _
        (List.mem_map_of_mem List.mem_cons_self) hname
    have hrest :
        nameSections file names (named ++ [item]).toArray (sections.map (·.header)) =
          .ok (named ++ [item] ++ sections).toArray :=
      ih (fun later hlater => hread later (List.mem_cons_of_mem item hlater))
        (by rwa [List.append_assoc])
    rw [List.map_cons, nameSections, hread item List.mem_cons_self]
    dsimp only
    rw [hnew, Bool.and_false, if_neg Bool.false_ne_true, List.push_toArray, hrest,
      List.append_assoc]
    rfl

-- ════════════════════════════════════════════════════════════════════════
-- What an object has been read from
-- ════════════════════════════════════════════════════════════════════════

/-- The parts of an object have been read from a file and have passed their checks. -/
structure Object.ReadFrom (object : Object) (file : ByteArray) : Prop where
  file_eq : object.file = file
  fileSize : file.size ≤ maxFileSize
  header : readRecord FileHeader file 0 = .ok object.header
  checked : object.header.check = .ok ()
  programHeaders : readProgramHeaders file object.header = .ok object.programHeaders
  sections : readSections file object.header = .ok object.sections
  dynamic : readDynamic file object.programHeaders object.sections = .ok object.dynamic
  relocations :
    readRelocations file object.programHeaders object.sections object.dynamic =
      .ok object.relocations
  symbols : readSymbols file object.sections object.dynamic = .ok object.symbols
  textSection : object.textSection.name = textName

theorem Object.readFrom_of_ofFile {file : ByteArray} {object : Object}
    (h : Object.ofFile file = .ok object) : object.ReadFrom file := by
  unfold Object.ofFile at h
  split at h
  · cases h
  · next hsize =>
    obtain ⟨header, hheader, h⟩ := exists_of_bind_eq_ok h
    obtain ⟨⟨⟩, hchecked, h⟩ := exists_of_bind_eq_ok h
    obtain ⟨programHeaders, hprogramHeaders, h⟩ := exists_of_bind_eq_ok h
    obtain ⟨sections, hsections, h⟩ := exists_of_bind_eq_ok h
    split at h
    · cases h
    · next text htext =>
      obtain ⟨dynamic, hdynamic, h⟩ := exists_of_bind_eq_ok h
      obtain ⟨relocations, hrelocations, h⟩ := exists_of_bind_eq_ok h
      obtain ⟨symbols, hsymbols, h⟩ := exists_of_bind_eq_ok h
      obtain rfl := Except.ok.inj h
      have hname := (Array.findFinIdx?_eq_some_iff.1 htext).1
      exact ⟨rfl, Nat.le_of_not_lt hsize, hheader, hchecked, hprogramHeaders, hsections, hdynamic,
        hrelocations, hsymbols, of_decide_eq_true hname⟩

end SbfMachine.Elf
