import SbfMachine.Link.Load
import SbfMachine.Proofs.Elf.Acceptance
import SbfMachine.Proofs.Link.Relocation

/-!
# Loading gives well-formed programs

The text of an object is one of the ranges that make up the image, so the image covers it. As
neither resolving calls nor applying relocations changes the size of the image, and both enter only
slots of the text as functions, what is loaded is well-formed.

## Main statements

- `Link.mapSection_eq_ok` — what adding a section to the image comes to
- `Link.size_imageOf` — the image ends with the last range that is copied
- `Link.text_inside_image` — the image covers the text
- `Program.Built.wellFormed` — all programs are well-formed
-/

namespace SbfMachine

namespace Link

open Elf

-- ════════════════════════════════════════════════════════════════════════
-- The ranges of an image
-- ════════════════════════════════════════════════════════════════════════

/-- A section is well placed if it is no larger than the file, its address is its file offset, and
it ends inside the program region. -/
theorem checkPlacement_eq_ok_iff {fileSize : Nat} {candidate : Elf.Section} :
    checkPlacement fileSize candidate = .ok () ↔
      candidate.header.size.toNat ≤ fileSize ∧ candidate.header.addr = candidate.header.offset ∧
        programBase.toNat + candidate.header.addr.toNat + candidate.header.size.toNat ≤
          stackBase.toNat := by
  unfold checkPlacement
  dsimp only
  constructor
  · intro h
    split at h
    · cases h
    split at h
    · cases h
    split at h
    · cases h
    · next hfile haddress hregion =>
      exact ⟨Nat.le_of_not_lt hfile, Decidable.not_not.1 haddress, Nat.le_of_not_lt hregion⟩
  · rintro ⟨hfile, haddress, hregion⟩
    rw [if_neg (Nat.not_lt.2 hfile), if_neg (not_not_intro haddress),
      if_neg (Nat.not_lt.2 hregion)]

/-- A section that can be added to an image is well placed, and it is either empty or a range of
the file that meets none of the ranges before it. -/
theorem mapSection_eq_ok {fileSize : Nat} {mapped after : List Extent} {candidate : Elf.Section}
    (h : mapSection fileSize mapped candidate = .ok after) :
    checkPlacement fileSize candidate = .ok () ∧
      ((Extent.ofSection candidate.header).isEmpty = true ∧ after = mapped ∨
        (Extent.ofSection candidate.header).isEmpty = false ∧
          (∀ other ∈ mapped, other.overlaps (Extent.ofSection candidate.header) = false) ∧
          (Extent.ofSection candidate.header).stop ≤ fileSize ∧
          after = mapped ++ [Extent.ofSection candidate.header]) := by
  unfold mapSection at h
  split at h
  · cases h
  · next hplaced =>
    refine ⟨hplaced, ?_⟩
    dsimp only at h
    split at h
    · next hempty => exact .inl ⟨hempty, (Except.ok.inj h).symm⟩
    · next hnonempty =>
      split at h
      · cases h
      · next hclear =>
        split at h
        · cases h
        · next hinside =>
          refine .inr ⟨by simpa using hnonempty, ?_, Nat.le_of_not_lt hinside,
            (Except.ok.inj h).symm⟩
          simpa using hclear

/-- Every section with data of an image is among its ranges. -/
theorem mem_of_foldlM_mapSection {fileSize : Nat} {start result : List Extent}
    {candidates : List Elf.Section}
    (h : candidates.foldlM (mapSection fileSize) start = .ok result) :
    (∀ extent ∈ start, extent ∈ result) ∧
      ∀ candidate ∈ candidates, (Extent.ofSection candidate.header).isEmpty = false →
        Extent.ofSection candidate.header ∈ result := by
  induction candidates generalizing start with
  | nil =>
    obtain rfl := Except.ok.inj h
    exact ⟨fun _ hmem => hmem, fun _ hmem => absurd hmem List.not_mem_nil⟩
  | cons candidate candidates ih =>
    rw [List.foldlM_cons] at h
    obtain ⟨after, hfirst, hrest⟩ := exists_of_bind_eq_ok h
    obtain ⟨hkeep, hlater⟩ := ih hrest
    obtain ⟨_, ⟨hempty, rfl⟩ | ⟨_, _, _, rfl⟩⟩ := mapSection_eq_ok hfirst
    · refine ⟨hkeep, fun other hother hdata => ?_⟩
      rcases List.mem_cons.1 hother with rfl | hother
      · rw [hempty] at hdata
        cases hdata
      · exact hlater other hother hdata
    · refine ⟨fun extent hextent => hkeep extent (List.mem_append_left _ hextent),
        fun other hother hdata => ?_⟩
      rcases List.mem_cons.1 hother with rfl | hother
      · exact hkeep _ (List.mem_append_right _ List.mem_cons_self)
      · exact hlater other hother hdata

/-- The ranges of an image are not empty and lie inside the file. -/
theorem mappedExtents_inside {object : Object} {extents : List Extent}
    (h : mappedExtents object = .ok extents) :
    ∀ extent ∈ extents, extent.start < extent.stop ∧ extent.stop ≤ object.file.size := by
  refine foldlM_ok_induction
    (fun extents => ∀ extent ∈ extents, extent.start < extent.stop ∧ extent.stop ≤ object.file.size)
    h (fun _ hmem => absurd hmem List.not_mem_nil) ?_
  intro before candidate after _ hbefore hstep
  obtain ⟨_, ⟨_, rfl⟩ | ⟨hdata, _, hinside, rfl⟩⟩ := mapSection_eq_ok hstep
  · exact hbefore
  · intro extent hextent
    rcases List.mem_append.1 hextent with hold | hnew
    · exact hbefore extent hold
    · obtain rfl := List.mem_singleton.1 hnew
      refine ⟨?_, hinside⟩
      simpa [Extent.isEmpty] using hdata

/-- Copying a range that fits does not change the size of an image. -/
theorem size_copyExtent {file image : ByteArray} {extent : Extent}
    (hrange : extent.start ≤ extent.stop) (hfile : extent.stop ≤ file.size)
    (himage : extent.stop ≤ image.size) : (copyExtent file image extent).size = image.size := by
  simp only [copyExtent, ByteArray.copySlice, ByteArray.size, Array.size_append,
    Array.size_extract] at hfile himage ⊢
  omega

theorem le_foldl_max_stop (extents : List Extent) (start : Nat) :
    start ≤ extents.foldl (fun size extent => max size extent.stop) start ∧
      ∀ extent ∈ extents,
        extent.stop ≤ extents.foldl (fun size extent => max size extent.stop) start := by
  induction extents generalizing start with
  | nil => exact ⟨Nat.le_refl start, fun _ hmem => absurd hmem List.not_mem_nil⟩
  | cons first extents ih =>
    obtain ⟨hstart, hlater⟩ := ih (max start first.stop)
    rw [List.foldl_cons]
    refine ⟨by omega, fun extent hextent => ?_⟩
    rcases List.mem_cons.1 hextent with rfl | hextent
    · omega
    · exact hlater extent hextent

theorem size_foldl_copyExtent {file image : ByteArray} {extents : List Extent}
    (hinside : ∀ extent ∈ extents, extent.start < extent.stop ∧ extent.stop ≤ file.size)
    (himage : ∀ extent ∈ extents, extent.stop ≤ image.size) :
    (extents.foldl (copyExtent file) image).size = image.size := by
  induction extents generalizing image with
  | nil => rfl
  | cons first extents ih =>
    obtain ⟨hrange, hfile⟩ := hinside first List.mem_cons_self
    have hsize := size_copyExtent (Nat.le_of_lt hrange) hfile (himage first List.mem_cons_self)
    rw [List.foldl_cons, ih (fun extent h => hinside extent (List.mem_cons_of_mem first h)), hsize]
    intro extent hextent
    rw [hsize]
    exact himage extent (List.mem_cons_of_mem first hextent)

/-- An image ends with the last of its ranges. -/
theorem size_imageOf {file : ByteArray} {extents : List Extent}
    (hinside : ∀ extent ∈ extents, extent.start < extent.stop ∧ extent.stop ≤ file.size) :
    (imageOf file extents).size = extents.foldl (fun size extent => max size extent.stop) 0 := by
  rw [imageOf, size_foldl_copyExtent hinside, Bytes.size_zeros]
  rw [Bytes.size_zeros]
  exact (le_foldl_max_stop extents 0).2

-- ════════════════════════════════════════════════════════════════════════
-- The text of an object
-- ════════════════════════════════════════════════════════════════════════

theorem checkPlacement_of_textRange {object : Object} {text : TextRange}
    (h : textRange object = .ok text) :
    checkPlacement object.file.size object.textSection = .ok () := by
  unfold textRange at h
  split at h
  · cases h
  · next hplaced => exact hplaced

/-- The text of an object is the range of its section: whole slots, and at least one. -/
theorem textRange_eq_ok {object : Object} {text : TextRange} (h : textRange object = .ok text) :
    text.start = object.textSection.header.offset.toNat ∧
      text.stop = object.textSection.header.stop ∧
      text.size = object.textSection.header.size.toNat ∧
      0 < text.size ∧ text.size % slotSize = 0 := by
  unfold textRange at h
  split at h
  · cases h
  · dsimp only at h
    split at h
    · cases h
    · next hsize =>
      obtain rfl := Except.ok.inj h
      obtain ⟨hne, hmultiple⟩ := not_or.1 hsize
      have haligned := Decidable.not_not.1 hmultiple
      have hpositive : object.textSection.header.size.toNat ≠ 0 :=
        fun hzero => hne (UInt64.toNat_inj.1 hzero)
      refine ⟨rfl, rfl, ?_⟩
      simp only [TextRange.size, SectionHeader.stop, slotSize] at haligned ⊢
      omega

/-- The text is one of the ranges of the image. -/
theorem text_mem_of_mappedExtents {file : ByteArray} {object : Object} {text : TextRange}
    {extents : List Extent} (hobject : Object.ofFile file = .ok object)
    (htext : textRange object = .ok text) (hextents : mappedExtents object = .ok extents) :
    (⟨text.start, text.stop⟩ : Extent) ∈ extents := by
  obtain ⟨hstart, hstop, _, hpositive, _⟩ := textRange_eq_ok htext
  have hextent : Extent.ofSection object.textSection.header = ⟨text.start, text.stop⟩ := by
    rw [Extent.ofSection, hstart, hstop]
  rw [← hextent]
  apply (mem_of_foldlM_mapSection hextents).2
  · rw [List.mem_filter, (Object.readFrom_of_ofFile hobject).textSection]
    exact ⟨Array.getElem_mem_toList _, by decide⟩
  · rw [hextent]
    simpa [Extent.isEmpty, TextRange.size] using hpositive

/-- An image is copied from the sections that belong to it, if these and the text pass their
checks. -/
theorem copyImage_eq_ok {object : Object} {image : ByteArray} {text : TextRange}
    (h : copyImage object = .ok (image, text)) :
    ∃ extents, textRange object = .ok text ∧ mappedExtents object = .ok extents ∧
      image = imageOf object.file extents := by
  obtain ⟨range, hrange, h⟩ := exists_of_bind_eq_ok h
  obtain ⟨extents, hextents, h⟩ := exists_of_bind_eq_ok h
  obtain ⟨rfl, rfl⟩ := Prod.mk.inj (Except.ok.inj h)
  exact ⟨extents, hrange, hextents, rfl⟩

/-- The image covers the text. -/
theorem text_inside_image {file : ByteArray} {object : Object} {image : ByteArray}
    {text : TextRange} (hobject : Object.ofFile file = .ok object)
    (h : copyImage object = .ok (image, text)) :
    text.start < text.stop ∧ text.stop ≤ image.size ∧ text.size % slotSize = 0 := by
  obtain ⟨extents, hrange, hextents, rfl⟩ := copyImage_eq_ok h
  obtain ⟨_, _, _, hpositive, haligned⟩ := textRange_eq_ok hrange
  have hmem := text_mem_of_mappedExtents hobject hrange hextents
  refine ⟨Nat.lt_of_sub_pos hpositive, ?_, haligned⟩
  rw [size_imageOf (mappedExtents_inside hextents)]
  exact (le_foldl_max_stop extents 0).2 _ hmem

end Link

-- ════════════════════════════════════════════════════════════════════════
-- Loaded programs
-- ════════════════════════════════════════════════════════════════════════

theorem entrySlot_lt {object : Elf.Object} {text : TextRange} {entryPc : Nat}
    (haligned : text.size % slotSize = 0) (h : entrySlot object text = .ok entryPc) :
    entryPc < text.slotCount := by
  unfold entrySlot at h
  dsimp only at h
  split at h
  · obtain rfl := Except.ok.inj h
    simp only [TextRange.slotCount, slotSize] at haligned ⊢
    omega
  · cases h

/-- What each of the steps of loading a file has come to. -/
theorem exists_steps_of_load {file : ByteArray} {loaded : Loaded} (h : load file = .ok loaded) :
    ∃ object image text linkage linked entryPc,
      Elf.Object.ofFile file = .ok object ∧
      Link.copyImage object = .ok (image, text) ∧
      (Linkage.ofImage image).resolveCalls text = .ok linkage ∧
      Link.Linker.applyAll object text
        { image := linkage.image
          functions := linkage.functions
          counts :=
            { calls := linkage.calls, abs64 := 0, relative := 0, functions := 0, syscalls := 0 } }
        object.relocations = .ok linked ∧
      entrySlot object text = .ok entryPc ∧
      loaded.program =
        { image := linked.image
          text
          entryPc
          functions := linked.functions
          sbfV2 := object.isSbfV2 } := by
  unfold load at h
  obtain ⟨object, hobject, h⟩ := exists_of_bind_eq_ok h
  obtain ⟨⟨image, text⟩, himage, h⟩ := exists_of_bind_eq_ok h
  obtain ⟨linkage, hcalls, h⟩ := exists_of_bind_eq_ok h
  obtain ⟨linked, hrelocations, h⟩ := exists_of_bind_eq_ok h
  obtain ⟨entryPc, hentry, h⟩ := exists_of_bind_eq_ok h
  obtain rfl := Except.ok.inj h
  exact ⟨object, image, text, linkage, linked, entryPc, hobject, himage, hcalls, hrelocations,
    hentry, rfl⟩

theorem wellFormed_of_load {file : ByteArray} {loaded : Loaded} (h : load file = .ok loaded) :
    loaded.program.WellFormed := by
  obtain ⟨object, image, text, linkage, linked, entryPc, hobject, himage, hcalls, hrelocations,
    hentry, hprogram⟩ := exists_steps_of_load h
  obtain ⟨hstart, hstop, haligned⟩ := Link.text_inside_image hobject himage
  obtain ⟨hresolved, hfunctions⟩ := Linkage.resolveCalls_keeps hcalls
  obtain ⟨hlinked, hwithin⟩ := Link.Linker.applyAll_keeps haligned hfunctions hrelocations
  rw [hprogram]
  refine ⟨Nat.le_of_lt hstart, ?_, haligned, entrySlot_lt haligned hentry, hwithin⟩
  simp only [hlinked, hresolved]
  exact hstop

namespace Program

/-- The programs that there are: made of a bare text, or loaded from a file. -/
def Built (program : Program) : Prop :=
  (∃ text, ofText text = .ok program) ∨
    ∃ file loaded, load file = .ok loaded ∧ loaded.program = program

theorem Built.wellFormed {program : Program} (h : program.Built) : program.WellFormed := by
  rcases h with ⟨text, htext⟩ | ⟨file, loaded, hload, rfl⟩
  · exact wellFormed_of_ofText htext
  · exact wellFormed_of_load hload

end Program

end SbfMachine
