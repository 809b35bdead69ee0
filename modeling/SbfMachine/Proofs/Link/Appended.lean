import SbfMachine.Proofs.Elf.Appended
import SbfMachine.Proofs.Link.MappedSections

/-!
# Bytes behind a file do not change its program

What an image is made of lies inside the file, and relocations see nothing of the file but the names
of symbols. So the program of a file is the program of the file with more bytes behind it.

## Main statements

- `Link.copyImage_appended` — the image and the text
- `Link.Resolves.appended`, `Link.Linker.applyAll_appended` — relocations
- `load_append` — bytes behind a file do not change its program
-/

namespace SbfMachine

namespace Link

open Elf

-- ════════════════════════════════════════════════════════════════════════
-- Image and text
-- ════════════════════════════════════════════════════════════════════════

section Image

variable {small large : Nat} (hsize : small ≤ large)
include hsize

theorem checkPlacement_of_le {candidate : Elf.Section}
    (h : checkPlacement small candidate = .ok ()) : checkPlacement large candidate = .ok () := by
  obtain ⟨hfile, hplaced⟩ := checkPlacement_eq_ok_iff.1 h
  exact checkPlacement_eq_ok_iff.2 ⟨Nat.le_trans hfile hsize, hplaced⟩

theorem mapSection_of_le {mapped after : List Extent} {candidate : Elf.Section}
    (h : mapSection small mapped candidate = .ok after) :
    mapSection large mapped candidate = .ok after := by
  obtain ⟨hplaced, hextent⟩ := mapSection_eq_ok h
  rw [mapSection, checkPlacement_of_le hsize hplaced]
  dsimp only
  obtain ⟨hempty, rfl⟩ | ⟨hdata, hclear, hinside, rfl⟩ := hextent
  · rw [if_pos hempty]
  · have hmeets : (mapped.any fun other =>
        other.overlaps (Extent.ofSection candidate.header)) = false := by
      simpa using hclear
    rw [hdata, hmeets, if_neg Bool.false_ne_true, if_neg Bool.false_ne_true,
      if_neg (by omega)]

theorem foldlM_mapSection_of_le {start result : List Extent} {candidates : List Elf.Section}
    (h : candidates.foldlM (mapSection small) start = .ok result) :
    candidates.foldlM (mapSection large) start = .ok result := by
  induction candidates generalizing start with
  | nil => exact h
  | cons candidate candidates ih =>
    rw [List.foldlM_cons] at h ⊢
    obtain ⟨after, hfirst, hrest⟩ := exists_of_bind_eq_ok h
    rw [mapSection_of_le hsize hfirst]
    exact ih hrest

end Image

/-- A range inside a file is copied from what stands there. -/
theorem copyExtent_append {file : ByteArray} {extent : Extent}
    (hrange : extent.start ≤ extent.stop) (hfile : extent.stop ≤ file.size)
    (more image : ByteArray) :
    copyExtent (file ++ more) image extent = copyExtent file image extent := by
  have hstop : extent.start + (extent.stop - extent.start) ≤ file.size := by omega
  have hlength : min (extent.stop - extent.start) ((file ++ more).data.size - extent.start) =
      min (extent.stop - extent.start) (file.data.size - extent.start) := by
    have hdata : (file ++ more).data.size = file.data.size + more.data.size :=
      ByteArray.size_append
    have hbound : extent.stop ≤ file.data.size := hfile
    omega
  rw [copyExtent, copyExtent, ByteArray.copySlice_eq_append, ByteArray.copySlice_eq_append,
    Bytes.extract_append_left hstop, hlength]

theorem imageOf_append {file : ByteArray} {extents : List Extent}
    (hinside : ∀ extent ∈ extents, extent.start < extent.stop ∧ extent.stop ≤ file.size)
    (more : ByteArray) : imageOf (file ++ more) extents = imageOf file extents := by
  rw [imageOf, imageOf]
  generalize Bytes.zeros _ = image
  induction extents generalizing image with
  | nil => rfl
  | cons first extents ih =>
    obtain ⟨hrange, hfile⟩ := hinside first List.mem_cons_self
    rw [List.foldl_cons, List.foldl_cons, copyExtent_append (Nat.le_of_lt hrange) hfile]
    exact ih (fun extent h => hinside extent (List.mem_cons_of_mem first h)) _

section Object

variable {object : Object} (more : ByteArray)

theorem le_size_appended : object.file.size ≤ (object.appended more).file.size := by
  rw [Object.appended, ByteArray.size_append]
  exact Nat.le_add_right _ _

theorem textRange_appended {text : TextRange} (h : textRange object = .ok text) :
    textRange (object.appended more) = .ok text := by
  have hplaced := checkPlacement_of_le (le_size_appended more) (checkPlacement_of_textRange h)
  have hsection : (object.appended more).textSection = object.textSection := rfl
  unfold textRange at h ⊢
  rw [checkPlacement_of_textRange h] at h
  rw [hsection, hplaced]
  exact h

/-- Image and text do not depend on what stands behind the file. -/
theorem copyImage_appended {image : ByteArray} {text : TextRange}
    (h : copyImage object = .ok (image, text)) :
    copyImage (object.appended more) = .ok (image, text) := by
  unfold copyImage at h ⊢
  obtain ⟨range, hrange, h⟩ := exists_of_bind_eq_ok h
  obtain ⟨extents, hextents, h⟩ := exists_of_bind_eq_ok h
  obtain ⟨rfl, rfl⟩ := Prod.mk.inj (Except.ok.inj h)
  have hmapped : mappedExtents (object.appended more) = .ok extents :=
    foldlM_mapSection_of_le (le_size_appended more) hextents
  have himage : imageOf (object.appended more).file extents = imageOf object.file extents :=
    imageOf_append (mappedExtents_inside hextents) more
  rw [textRange_appended more hrange, hmapped]
  simp only [bind, Except.bind, pure, Except.pure, himage]

end Object

-- ════════════════════════════════════════════════════════════════════════
-- Relocations
-- ════════════════════════════════════════════════════════════════════════

section Relocations

variable {object : Object} {text : TextRange} (more : ByteArray)

/-- A relocation does what it did, for the names of symbols are read inside the file. -/
theorem Resolves.appended {image : ByteArray} {functions : FunctionTable}
    {counts : RelocationCounts} {relocation : Relocation} {resolution : Resolution}
    (h : Resolves object text image functions counts relocation resolution) :
    Resolves (object.appended more) text image functions counts relocation resolution := by
  cases h with
  | ignored hkind => exact .ignored hkind
  | abs64 hkind hpatches => exact .abs64 hkind hpatches
  | relativeInText hkind hplace hpatches => exact .relativeInText hkind hplace hpatches
  | relativeInData hkind hplace hpatches => exact .relativeInData hkind hplace hpatches
  | call hkind hsymbol hname htarget hpatches =>
    exact .call hkind hsymbol (Object.symbolName_appended hname more) htarget hpatches

theorem Linker.applyAll_appended {linker linked : Linker} {relocations : List Relocation}
    (h : linker.applyAll object text relocations = .ok linked) :
    linker.applyAll (object.appended more) text relocations = .ok linked := by
  unfold Linker.applyAll at h ⊢
  induction relocations generalizing linker with
  | nil => exact h
  | cons relocation relocations ih =>
    rw [List.foldlM_cons] at h ⊢
    obtain ⟨after, hfirst, hrest⟩ := exists_of_bind_eq_ok h
    obtain ⟨resolution, hresolves, rfl⟩ := Linker.apply_eq_ok hfirst
    rw [Linker.apply_of_resolves (hresolves.appended more)]
    exact ih hrest

end Relocations

end Link

/-- A file with more bytes behind it, if it is not too large for a file, is loaded to the same
program, with the same numbers of relocations. -/
theorem load_append {file : ByteArray} {loaded : Loaded} (h : load file = .ok loaded)
    {more : ByteArray} (hsize : file.size + more.size ≤ Elf.maxFileSize) :
    load (file ++ more) = .ok loaded := by
  unfold load at h ⊢
  obtain ⟨object, hobject, h⟩ := exists_of_bind_eq_ok h
  obtain ⟨⟨image, text⟩, himage, h⟩ := exists_of_bind_eq_ok h
  obtain ⟨linkage, hcalls, h⟩ := exists_of_bind_eq_ok h
  obtain ⟨linked, hrelocations, h⟩ := exists_of_bind_eq_ok h
  obtain ⟨entryPc, hentry, h⟩ := exists_of_bind_eq_ok h
  obtain rfl := Except.ok.inj h
  have hlinked := Link.Linker.applyAll_appended more hrelocations
  have hentry' : entrySlot (object.appended more) text = .ok entryPc := hentry
  rw [Elf.Object.ofFile_append hobject hsize]
  simp only [bind, Except.bind, Link.copyImage_appended more himage, hcalls]
  rw [show (object.appended more).relocations = object.relocations from rfl, hlinked]
  simp only [hentry']
  rfl

/-- A file with constants, and one more instruction behind its last section header. -/
theorem load_append_of_rodataFile :
    ∃ loaded, load (Link.rodataFile Link.Blueprint.progBitsKind 72 8) = .ok loaded ∧
      load (Link.rodataFile Link.Blueprint.progBitsKind 72 8 ++ encodeText [.new 0x95 0 0 0 0]) =
        .ok loaded := by
  obtain ⟨loaded, hload⟩ :
      ∃ loaded, load (Link.rodataFile Link.Blueprint.progBitsKind 72 8) = .ok loaded :=
    exists_eq_ok_of_isOk (by decide +kernel)
  exact ⟨loaded, hload, load_append hload (by decide +kernel)⟩

end SbfMachine
