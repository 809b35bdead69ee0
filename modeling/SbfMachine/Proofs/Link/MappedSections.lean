import SbfMachine.Proofs.Elf.Layout
import SbfMachine.Proofs.Link.Layout

/-!
# The file ranges that an image is copied from

Two passes look at the sections of a file. The section header table is checked for sections that
reach into the headers of the file; this pass skips section 0 and the sections without data. What is
copied into the image is selected by name, from all sections, and is checked against the end of the
file and against what is copied already. So copied ranges are always inside the file and apart from
each other, and those that the first pass has checked are clear of the headers. A section without
data that bears the name of a mapped section is copied all the same, and may lie anywhere.

## Main definitions

- `Link.Extent.Apart` — two ranges have no byte in common
- `Link.IsCopied` — the sections that are copied into the image
- `Link.CopiedApart` — what the checks of both passes come to

## Main statements

- `Elf.flaw?_of_readSections` — the sections that the first pass has checked
- `Link.pairwise_of_foldlM_mapSection` — the second pass keeps ranges apart
- `Link.copiedApart_of_load` — both passes together
-/

namespace SbfMachine

namespace Elf

-- ════════════════════════════════════════════════════════════════════════
-- The first pass
-- ════════════════════════════════════════════════════════════════════════

/-- The checks find no flaw in any of the sections that have data. -/
theorem flaw?_of_checkSections {fileSize index dataEnd : Nat} {file : FileHeader}
    {headers : List SectionHeader} (h : checkSections fileSize file index dataEnd headers = .ok ())
    {header : SectionHeader} (hmem : header ∈ headers) (hdata : header.hasData = true) :
    ∃ before, header.flaw? fileSize file before = none := by
  induction headers generalizing index dataEnd with
  | nil => exact absurd hmem List.not_mem_nil
  | cons first headers ih =>
    rw [checkSections] at h
    split at h
    · cases hflaw : first.flaw? fileSize file dataEnd with
      | some flaw =>
        rw [hflaw] at h
        cases h
      | none =>
        rw [hflaw] at h
        rcases List.mem_cons.1 hmem with rfl | hlater
        · exact ⟨dataEnd, hflaw⟩
        · exact ih h hlater
    · next hnone =>
      rcases List.mem_cons.1 hmem with rfl | hlater
      · exact absurd hdata hnone
      · exact ih h hlater

/-- Behind section 0, the sections that have data have passed the checks. -/
theorem flaw?_of_readSections {file : ByteArray} {header : FileHeader} {sections : Array Section}
    (h : readSections file header = .ok sections) {index : Nat} (hindex : index < sections.size)
    (hne : index ≠ 0) (hdata : sections[index].header.hasData = true) :
    ∃ before, sections[index].header.flaw? file.size header before = none := by
  have hcheck := checkSectionTable_of_readSections h
  have hheader : (sections.toList.map (·.header))[index]? = some sections[index].header := by
    simp [hindex]
  cases hlist : sections.toList.map (·.header) with
  | nil =>
    rw [hlist] at hheader
    cases hheader
  | cons first rest =>
    rw [hlist] at hcheck hheader
    rw [checkSectionTable] at hcheck
    split at hcheck
    · obtain ⟨later, rfl⟩ := Nat.exists_eq_succ_of_ne_zero hne
      exact flaw?_of_checkSections hcheck (List.mem_of_getElem? hheader) hdata
    · cases hcheck

end Elf

namespace Link

open Elf

namespace Extent

/-- Two ranges have no byte in common. -/
def Apart (a b : Extent) : Prop :=
  ∀ i, ¬((a.start ≤ i ∧ i < a.stop) ∧ b.start ≤ i ∧ i < b.stop)

theorem Apart.symm {a b : Extent} (h : a.Apart b) : b.Apart a :=
  fun i ⟨hb, ha⟩ => h i ⟨ha, hb⟩

theorem apart_of_overlaps {a b : Extent} (h : a.overlaps b = false) : a.Apart b := by
  intro i hi
  simp only [overlaps, Bool.and_eq_false_iff, decide_eq_false_iff_not] at h
  omega

/-- Ranges that the checks of headers keep apart, unless one of them ends where they are cut off. -/
theorem apart_of_elf_overlaps {start size : Nat} {extent : Extent} (hstop : extent.stop ≤ maxWord)
    (h : Elf.overlaps start size extent.start (extent.stop - extent.start) = false) :
    Apart ⟨start, start + size⟩ extent := by
  intro i hi
  simp only [Elf.overlaps, Bool.and_eq_false_iff, decide_eq_false_iff_not] at h
  dsimp only at hi
  omega

end Extent

/-- A section is copied into the image: it is mapped by its name and has a byte. -/
def IsCopied (candidate : Elf.Section) : Prop :=
  candidate.name ∈ mappedNames ∧ (Extent.ofSection candidate.header).isEmpty = false

/-- Where the sections that are copied into the image lie in the file. -/
structure CopiedApart (object : Object) : Prop where
  inside : ∀ i (h : i < object.sections.size), IsCopied object.sections[i] →
    object.sections[i].header.stop ≤ object.file.size
  apart : ∀ i j (hi : i < object.sections.size) (hj : j < object.sections.size), i ≠ j →
    IsCopied object.sections[i] → IsCopied object.sections[j] →
      (Extent.ofSection object.sections[i].header).Apart (Extent.ofSection object.sections[j].header)
  /-- Only section 0 and sections without data may reach into the headers. -/
  headers : ∀ i (h : i < object.sections.size), IsCopied object.sections[i] → i ≠ 0 →
    object.sections[i].header.hasData = true →
      Extent.Apart ⟨0, fileHeaderSize⟩ (Extent.ofSection object.sections[i].header) ∧
        Extent.Apart
          ⟨object.header.programTable, object.header.programTable + object.header.programTableSize⟩
          (Extent.ofSection object.sections[i].header) ∧
        Extent.Apart
          ⟨object.header.sectionTable, object.header.sectionTable + object.header.sectionTableSize⟩
          (Extent.ofSection object.sections[i].header)

-- ════════════════════════════════════════════════════════════════════════
-- The second pass
-- ════════════════════════════════════════════════════════════════════════

/-- Nothing that is added to the image meets what is there already. -/
theorem apart_of_foldlM_mapSection {fileSize : Nat} {start result : List Extent}
    {candidates : List Elf.Section}
    (h : candidates.foldlM (mapSection fileSize) start = .ok result) :
    ∀ other ∈ start, ∀ candidate ∈ candidates,
      (Extent.ofSection candidate.header).isEmpty = false →
        other.Apart (Extent.ofSection candidate.header) := by
  induction candidates generalizing start with
  | nil => exact fun _ _ _ hmem => absurd hmem List.not_mem_nil
  | cons first candidates ih =>
    intro other hother candidate hcandidate hbytes
    rw [List.foldlM_cons] at h
    obtain ⟨after, hfirst, hrest⟩ := exists_of_bind_eq_ok h
    obtain ⟨_, ⟨hempty, rfl⟩ | ⟨_, hclear, _, rfl⟩⟩ := mapSection_eq_ok hfirst
    · rcases List.mem_cons.1 hcandidate with rfl | hlater
      · rw [hempty] at hbytes
        cases hbytes
      · exact ih hrest other hother candidate hlater hbytes
    · rcases List.mem_cons.1 hcandidate with rfl | hlater
      · exact Extent.apart_of_overlaps (hclear other hother)
      · exact ih hrest other (List.mem_append_left _ hother) candidate hlater hbytes

/-- The ranges that are copied are apart from each other. -/
theorem pairwise_of_foldlM_mapSection {fileSize : Nat} {start result : List Extent}
    {candidates : List Elf.Section}
    (h : candidates.foldlM (mapSection fileSize) start = .ok result) :
    candidates.Pairwise fun first later =>
      (Extent.ofSection first.header).isEmpty = false →
        (Extent.ofSection later.header).isEmpty = false →
          (Extent.ofSection first.header).Apart (Extent.ofSection later.header) := by
  induction candidates generalizing start with
  | nil => exact .nil
  | cons first candidates ih =>
    rw [List.foldlM_cons] at h
    obtain ⟨after, hfirst, hrest⟩ := exists_of_bind_eq_ok h
    refine .cons (fun later hlater hbytes hbytes' => ?_) (ih hrest)
    obtain ⟨_, ⟨hempty, _⟩ | ⟨_, _, _, rfl⟩⟩ := mapSection_eq_ok hfirst
    · rw [hempty] at hbytes
      cases hbytes
    · exact apart_of_foldlM_mapSection hrest _ (List.mem_append_right _ List.mem_cons_self) later
        hlater hbytes'

-- ════════════════════════════════════════════════════════════════════════
-- Both passes
-- ════════════════════════════════════════════════════════════════════════

section Object

variable {object : Object} {extents : List Extent}

theorem inside_of_isCopied (h : mappedExtents object = .ok extents) {candidate : Elf.Section}
    (hmem : candidate ∈ object.sections.toList) (hcopied : IsCopied candidate) :
    candidate.header.stop ≤ object.file.size := by
  obtain ⟨hname, hbytes⟩ := hcopied
  have hmapped := (mem_of_foldlM_mapSection h).2 candidate
    (List.mem_filter.2 ⟨hmem, List.contains_iff_mem.2 hname⟩) hbytes
  exact (mappedExtents_inside h _ hmapped).2

theorem pairwise_of_mappedExtents (h : mappedExtents object = .ok extents) :
    object.sections.toList.Pairwise fun first later => IsCopied first → IsCopied later →
      (Extent.ofSection first.header).Apart (Extent.ofSection later.header) := by
  refine (List.pairwise_filter.1 (pairwise_of_foldlM_mapSection h)).imp ?_
  intro first later hapart hfirst hlater
  exact hapart (List.contains_iff_mem.2 hfirst.1) (List.contains_iff_mem.2 hlater.1) hfirst.2
    hlater.2

/-- A section that the first pass has checked is clear of all headers. -/
theorem headersApart_of_flaw? {fileSize before : Nat} {file : FileHeader} {header : SectionHeader}
    (h : header.flaw? fileSize file before = none) :
    Extent.Apart ⟨0, fileHeaderSize⟩ (.ofSection header) ∧
      Extent.Apart ⟨file.programTable, file.programTable + file.programTableSize⟩
        (.ofSection header) ∧
      Extent.Apart ⟨file.sectionTable, file.sectionTable + file.sectionTableSize⟩
        (.ofSection header) := by
  obtain ⟨hstop, hstart, hprogram, hsections, -⟩ := SectionHeader.rules_of_flaw? h
  have hsize : (Extent.ofSection header).stop - (Extent.ofSection header).start =
      header.size.toNat := Nat.add_sub_cancel_left ..
  refine ⟨fun i hi => ?_, Extent.apart_of_elf_overlaps hstop (hsize ▸ hprogram),
    Extent.apart_of_elf_overlaps hstop (hsize ▸ hsections)⟩
  simp only [Extent.ofSection] at hi
  omega

end Object

/-- What is copied from an accepted file is inside the file and apart from each other, and is clear
of the headers where it comes from a section with data. -/
theorem copiedApart_of_load {file : ByteArray} {loaded : Loaded} (h : load file = .ok loaded) :
    ∃ object, Object.ofFile file = .ok object ∧ CopiedApart object := by
  obtain ⟨object, image, text, linkage, linked, entryPc, hobject, himage, -⟩ :=
    exists_steps_of_load h
  obtain ⟨range, _, himage⟩ := exists_of_bind_eq_ok himage
  obtain ⟨extents, hextents, -⟩ := exists_of_bind_eq_ok himage
  have hfrom := Object.readFrom_of_ofFile hobject
  refine ⟨object, hobject, ?_, ?_, ?_⟩
  · intro i hi hcopied
    exact inside_of_isCopied hextents (Array.getElem_mem_toList hi) hcopied
  · intro i j hi hj hne hfirst hlater
    have hpairwise := List.pairwise_iff_getElem.1 (pairwise_of_mappedExtents hextents)
    rcases Nat.lt_or_gt_of_ne hne with hlt | hgt
    · exact hpairwise i j hi hj hlt hfirst hlater
    · exact (hpairwise j i hj hi hgt hlater hfirst).symm
  · intro i hi _ hne hdata
    obtain ⟨before, hflaw⟩ := flaw?_of_readSections hfrom.sections hi hne hdata
    exact headersApart_of_flaw? hflaw

/-- A shared object with one instruction, `exit`, and eight bytes of data behind it, whose section
header for `.rodata` is as given. -/
def rodataFile (kind : UInt32) (offset size : Nat) : ByteArray :=
  let names := Blueprint.stringTable [".text", ".rodata", ".shstrtab"]
  let header : FileHeader :=
    { ident := Blueprint.ident, kind := sharedObjectKind, machine := bpfMachine
      version := 1, entry := 64, phoff := 64, shoff := 112, flags := 0, ehsize := 64
      phentsize := 56, phnum := 0, shentsize := 64, shnum := 4, shstrndx := 3 }
  let text : SectionPlan :=
    { name := ".text", kind := Blueprint.progBitsKind, offset := 64, size := 8, link := 0 }
  let rodata : SectionPlan := { name := ".rodata", kind, offset, size, link := 0 }
  let nameTable : SectionPlan :=
    { name := ".shstrtab", kind := stringTableKind, offset := 80, size := names.size, link := 0 }
  encodeTable [header] ++ encodeText [.new 0x95 0 0 0 0] ++ Bytes.zeros 8 ++
    Bytes.padTo names 32 ++
    encodeTable
      [Blueprint.nullSectionHeader, Blueprint.sectionHeader text 1,
       Blueprint.sectionHeader rodata 7, Blueprint.sectionHeader nameTable 15]

/-- A file whose data is where it belongs. -/
theorem copiedApart_of_rodataFile :
    ∃ loaded, load (rodataFile Blueprint.progBitsKind 72 8) = .ok loaded ∧
      ∃ object, Object.ofFile (rodataFile Blueprint.progBitsKind 72 8) = .ok object ∧
        CopiedApart object := by
  obtain ⟨loaded, hload⟩ : ∃ loaded, load (rodataFile Blueprint.progBitsKind 72 8) = .ok loaded :=
    exists_eq_ok_of_isOk (by decide +kernel)
  exact ⟨loaded, hload, copiedApart_of_load hload⟩

/-- What is copied is not always clear of the headers: a section without data that covers the file
header is copied into the image if its name is `.rodata`. -/
theorem rodataFile_covers_header :
    ∃ loaded object, load (rodataFile noBitsSectionKind 0 64) = .ok loaded ∧
      Object.ofFile (rodataFile noBitsSectionKind 0 64) = .ok object ∧
      ∃ candidate ∈ object.sections.toList, IsCopied candidate ∧
        ¬Extent.Apart ⟨0, fileHeaderSize⟩ (.ofSection candidate.header) := by
  obtain ⟨loaded, hload⟩ : ∃ loaded, load (rodataFile noBitsSectionKind 0 64) = .ok loaded :=
    exists_eq_ok_of_isOk (by decide +kernel)
  obtain ⟨object, _, _, _, _, _, hobject, -⟩ := exists_steps_of_load hload
  have hcovers : (Object.ofFile (rodataFile noBitsSectionKind 0 64)).toOption.any (fun object =>
      object.sections.toList.any fun candidate => decide (candidate.name ∈ mappedNames) &&
        decide (Extent.ofSection candidate.header = ⟨0, 64⟩)) = true := by
    decide +kernel
  rw [hobject, Except.toOption, Option.any_some, List.any_eq_true] at hcovers
  obtain ⟨candidate, hmem, hcandidate⟩ := hcovers
  obtain ⟨hname, hextent⟩ := Bool.and_eq_true_iff.1 hcandidate
  refine ⟨loaded, object, hload, hobject, candidate, hmem, ⟨of_decide_eq_true hname, ?_⟩, ?_⟩
  all_goals rw [of_decide_eq_true hextent]
  · rfl
  · exact fun hapart => hapart 0 (by decide)

end Link

end SbfMachine
