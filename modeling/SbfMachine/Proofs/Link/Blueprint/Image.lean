import SbfMachine.Proofs.Link.Blueprint.Object
import SbfMachine.Proofs.Link.Loading
import SbfMachine.Proofs.Program.Calls

/-!
# Images of files that are written

The image of a file that was written from a blueprint consists of zero bytes where the headers are
in the file, the text and the constants. What is left of loading it is to resolve its calls and to
apply its relocations.

## Main definitions

- `placedImage` — an image that consists of a text and constants
- `Blueprint.image`, `Blueprint.textRange` — the image before anything is linked
- `Blueprint.Links` — resolving calls and applying relocations has a result

## Main statements

- `Blueprint.Buildable.copyImage_build` — the image of the file
- `Blueprint.Buildable.exists_resolveCalls` — its calls are resolved like those of the bare text
- `Blueprint.Buildable.load_build` — the file is loaded if its image can be linked
- `Blueprint.exists_load_ofText` — the file of a bare text
-/

namespace SbfMachine.Link

open Elf
open Bytes (Holds)

/-- Copying a range that holds a part puts the part into the image. -/
theorem copyExtent_of_holds {file image part : ByteArray} {extent : Extent}
    (h : Holds file extent.start part) (hstop : extent.stop = extent.start + part.size)
    (himage : extent.stop ≤ image.size) :
    copyExtent file image extent = Bytes.overwrite image extent.start part := by
  have hinside := h.inside
  rw [copyExtent, ← Bytes.overwrite_extract (by omega) (by omega) himage, hstop, h.extract]

/-- An image that consists of a text, where the text of a file stands, and of constants. -/
def placedImage (text rodata : ByteArray) : ByteArray :=
  Bytes.zeros Blueprint.textOffset ++ text ++ rodata

@[simp]
theorem size_placedImage (text rodata : ByteArray) :
    (placedImage text rodata).size = Blueprint.textOffset + text.size + rodata.size := by
  rw [placedImage, ByteArray.size_append, ByteArray.size_append, Bytes.size_zeros]

/-- An image holds the parts that it consists of. -/
theorem holds_placedImage (text rodata : ByteArray) :
    Holds (placedImage text rodata) Blueprint.textOffset text ∧
      Holds (placedImage text rodata) (Blueprint.textOffset + text.size) rodata := by
  have hheld := Bytes.holds_surrounded (Bytes.zeros Blueprint.textOffset) text rodata
  rwa [Bytes.size_zeros] at hheld

/-- Writing into the text of an image. -/
theorem writeLE_placedImage_text {text : ByteArray} {start width : Nat} (rodata : ByteArray)
    (value : UInt64) (h : start + width ≤ text.size) :
    Bytes.writeLE (placedImage text rodata) (Blueprint.textOffset + start) value width =
      placedImage (Bytes.writeLE text start value width) rodata := by
  have hwritten := Bytes.writeLE_surrounded (Bytes.zeros Blueprint.textOffset) rodata value h
  rwa [Bytes.size_zeros] at hwritten

/-- Writing into the constants of an image. -/
theorem writeLE_placedImage_rodata (text rodata : ByteArray) (start width : Nat) (value : UInt64) :
    Bytes.writeLE (placedImage text rodata) (Blueprint.textOffset + text.size + start) value width =
      placedImage text (Bytes.writeLE rodata start value width) := by
  have hfront : (Bytes.zeros Blueprint.textOffset ++ text).size =
      Blueprint.textOffset + text.size := by
    rw [ByteArray.size_append, Bytes.size_zeros]
  rw [placedImage, placedImage, ← hfront, Bytes.writeLE_append_right]

namespace Blueprint

/-- The image before anything is linked. -/
def image (blueprint : Blueprint) : ByteArray :=
  placedImage blueprint.textSection blueprint.rodataSection

/-- Where the text lies in the image. -/
def textRange (blueprint : Blueprint) : TextRange where
  start := textOffset
  stop := textOffset + blueprint.text.size

/-- The plan of the section with the text. -/
def textPlan (blueprint : Blueprint) : SectionPlan :=
  { name := ".text", kind := progBitsKind, offset := textOffset, size := blueprint.text.size
    link := 0 }

/-- The plan of the section with the constants. -/
def rodataPlan (blueprint : Blueprint) : SectionPlan :=
  { name := ".rodata", kind := progBitsKind, offset := blueprint.rodataOffset
    size := blueprint.rodata.size, link := 0 }

def textExtent (blueprint : Blueprint) : Extent where
  start := textOffset
  stop := textOffset + blueprint.text.size

def rodataExtent (blueprint : Blueprint) : Extent where
  start := blueprint.rodataOffset
  stop := blueprint.rodataOffset + blueprint.rodata.size

/-- The ranges of the file that are copied. There is none for constants that are empty. -/
def extents (blueprint : Blueprint) : List Extent :=
  if blueprint.rodata.size = 0 then [blueprint.textExtent]
  else [blueprint.textExtent, blueprint.rodataExtent]

/-- The image can be linked: its calls are resolved, and its relocations are applied after that. -/
structure Links (blueprint : Blueprint) (linkage : Linkage) (linked : Linker) : Prop where
  calls : (Linkage.ofImage blueprint.image).resolveCalls blueprint.textRange = .ok linkage
  relocations :
    Linker.applyAll blueprint.object blueprint.textRange
      { image := linkage.image
        functions := linkage.functions
        counts :=
          { calls := linkage.calls, abs64 := 0, relative := 0, functions := 0, syscalls := 0 } }
      (blueprint.relocations.map blueprint.relocationRecord) = .ok linked

variable {blueprint : Blueprint}

theorem size_image (blueprint : Blueprint) :
    blueprint.image.size = textOffset + blueprint.text.size + blueprint.rodata.size := by
  rw [image, size_placedImage, size_textSection, size_rodataSection]

theorem slotCount_textRange (blueprint : Blueprint) :
    blueprint.textRange.slotCount = blueprint.text.size / slotSize := by
  rw [TextRange.slotCount, TextRange.size, textRange, Nat.add_sub_cancel_left]

/-- Text and constants put into zero bytes. -/
theorem overwrite_zeros_eq (n : Nat) (text rodata : ByteArray) :
    Bytes.overwrite
        (Bytes.overwrite (Bytes.zeros (n + text.size + rodata.size)) n text)
        (n + text.size) rodata =
      Bytes.zeros n ++ text ++ rodata := by
  apply Bytes.ext_byteAt
  · simp only [Bytes.size_overwrite, Bytes.size_zeros, ByteArray.size_append]
  · intro i hi
    rw [Bytes.size_overwrite, Bytes.size_overwrite, Bytes.size_zeros] at hi
    simp only [Bytes.byteAt_overwrite, Bytes.byteAt_append, Bytes.size_overwrite, Bytes.size_zeros,
      ByteArray.size_append, Bytes.byteAt_zeros]
    grind

namespace Buildable

variable (h : blueprint.Buildable)
include h

-- ════════════════════════════════════════════════════════════════════════
-- The sections of the image
-- ════════════════════════════════════════════════════════════════════════

/-- A section of the file is well placed. -/
theorem checkPlacement_planned {plan : SectionPlan} (name : Nat)
    (hplan : plan.offset + plan.size ≤ blueprint.build.size) :
    checkPlacement blueprint.build.size (planned plan name) = .ok () := by
  have hstop := h.placed.stop_le
  have hbase : programBase.toNat + 0x100000000 = stackBase.toNat := by decide
  have hlimit : plan.offset + plan.size ≤ 67108864 := by omega
  obtain ⟨hoffset, hsize, _⟩ := toNat_sectionHeader name hlimit
  have haddress : (sectionHeader plan name).addr = (sectionHeader plan name).offset := rfl
  refine checkPlacement_eq_ok_iff.2 ⟨?_, rfl, ?_⟩
  · rw [planned, hsize]
    omega
  · rw [planned, haddress, hoffset, hsize]
    omega

omit h in
theorem textSection_object (blueprint : Blueprint) :
    blueprint.object.textSection = planned blueprint.textPlan 1 :=
  rfl

theorem textPlan_le :
    blueprint.textPlan.offset + blueprint.textPlan.size ≤ blueprint.build.size := by
  obtain ⟨⟩ := h.placed
  dsimp only [textPlan]
  omega

theorem rodataPlan_le :
    blueprint.rodataPlan.offset + blueprint.rodataPlan.size ≤ blueprint.build.size := by
  obtain ⟨⟩ := h.placed
  dsimp only [rodataPlan]
  omega

theorem textRange_build : Link.textRange blueprint.object = .ok blueprint.textRange := by
  have hfile : blueprint.object.file = blueprint.build := by rw [object]
  have hpos := h.nonempty
  obtain ⟨hoffset, hsize, hstop⟩ :=
    toNat_sectionHeader 1 (Nat.le_trans h.textPlan_le h.placed.stop_le)
  have hnonzero : (sectionHeader blueprint.textPlan 1).size ≠ 0 := by
    rw [← UInt64.toNat_inj.ne, hsize]
    exact Nat.ne_of_gt hpos
  have hsizes : ¬((sectionHeader blueprint.textPlan 1).size = 0 ∨
      (sectionHeader blueprint.textPlan 1).size.toNat % slotSize ≠ 0) := by
    rw [hsize]
    exact not_or.2 ⟨hnonzero, not_not_intro h.aligned⟩
  unfold Link.textRange
  rw [textSection_object, hfile, h.checkPlacement_planned 1 h.textPlan_le]
  dsimp only [planned]
  rw [if_neg hsizes, hoffset, hstop]
  rfl

/-- A section behind the ranges so far is added to them if it is not empty. -/
theorem mapSection_planned {plan : SectionPlan} {mapped : List Extent} (name : Nat)
    (hplan : plan.offset + plan.size ≤ blueprint.build.size)
    (hclear : ∀ other ∈ mapped, other.stop ≤ plan.offset) :
    mapSection blueprint.build.size mapped (planned plan name) =
      .ok (if plan.size = 0 then mapped
        else mapped ++ [{ start := plan.offset, stop := plan.offset + plan.size }]) := by
  obtain ⟨hoffset, _, hstop⟩ :=
    toNat_sectionHeader name (Nat.le_trans hplan h.placed.stop_le)
  have hextent : Extent.ofSection (planned plan name).header =
      { start := plan.offset, stop := plan.offset + plan.size } := by
    rw [Extent.ofSection, planned, hoffset, hstop]
  have hapart : (mapped.any fun other =>
      other.overlaps { start := plan.offset, stop := plan.offset + plan.size }) = false := by
    rw [List.any_eq_false]
    intro other hother hoverlap
    have hbefore := hclear other hother
    simp only [Extent.overlaps, Bool.and_eq_true, decide_eq_true_eq] at hoverlap
    omega
  have hempty : (plan.offset + plan.size ≤ plan.offset) = (plan.size = 0) := by
    rw [eq_iff_iff]
    omega
  unfold mapSection
  rw [h.checkPlacement_planned name hplan]
  simp only [hextent, hapart, Bool.false_eq_true, if_false, if_neg (Nat.not_lt.2 hplan),
    Extent.isEmpty, decide_eq_true_eq, hempty]
  split <;> rfl

/-- The sections of the image are the text and the constants. -/
theorem mappedExtents_build : mappedExtents blueprint.object = .ok blueprint.extents := by
  have hfile : blueprint.object.file = blueprint.build := by rw [object]
  have hmapped : (blueprint.object.sections.toList.filter fun candidate =>
        mappedNames.contains candidate.name) =
      [planned blueprint.textPlan 1, planned blueprint.rodataPlan 7] := rfl
  have htext : mapSection blueprint.build.size [] (planned blueprint.textPlan 1) =
      .ok [blueprint.textExtent] := by
    have hnonempty : blueprint.textPlan.size ≠ 0 := Nat.ne_of_gt h.nonempty
    rw [h.mapSection_planned 1 h.textPlan_le fun other hother => absurd hother List.not_mem_nil,
      if_neg hnonempty]
    rfl
  have hrodata : mapSection blueprint.build.size [blueprint.textExtent]
      (planned blueprint.rodataPlan 7) = .ok blueprint.extents := by
    rw [h.mapSection_planned 7 h.rodataPlan_le fun other hother => ?_]
    · rw [extents]
      rfl
    · obtain rfl := List.mem_singleton.1 hother
      obtain ⟨⟩ := h.placed
      dsimp only [rodataPlan, textExtent]
      omega
  rw [mappedExtents, hmapped, hfile, List.foldlM_cons, htext]
  simp only [bind, Except.bind, List.foldlM_cons, hrodata, List.foldlM_nil]
  rfl

/-- What is copied is the text and the constants, with zero bytes before them. -/
theorem imageOf_build : imageOf blueprint.build blueprint.extents = blueprint.image := by
  have hheld := heldBy_build h.segments
  have hplace := h.rodataOffset_eq
  have hcopied {size : Nat} (hsize : textOffset + blueprint.text.size ≤ size) :
      copyExtent blueprint.build (Bytes.zeros size) blueprint.textExtent =
        Bytes.overwrite (Bytes.zeros size) textOffset blueprint.textSection := by
    apply copyExtent_of_holds hheld.text
    · rw [textExtent, size_textSection]
    · rwa [Bytes.size_zeros]
  rw [image, placedImage, ← overwrite_zeros_eq, size_textSection, size_rodataSection, extents]
  by_cases hempty : blueprint.rodata.size = 0
  · have hnothing (target : ByteArray) (start : Nat) :
        Bytes.overwrite target start blueprint.rodataSection = target := by
      apply Bytes.ext_byteAt
      · exact Bytes.size_overwrite ..
      · intro i _
        rw [Bytes.byteAt_overwrite, size_rodataSection, hempty, if_neg (by omega)]
    have hsize : max 0 blueprint.textExtent.stop = textOffset + blueprint.text.size :=
      Nat.max_eq_right (Nat.zero_le _)
    rw [if_pos hempty, imageOf, hnothing, hempty, Nat.add_zero]
    simp only [List.foldl_cons, List.foldl_nil]
    rw [hsize, hcopied (Nat.le_refl _)]
  · have hsize : max (max 0 blueprint.textExtent.stop) blueprint.rodataExtent.stop =
        textOffset + blueprint.text.size + blueprint.rodata.size := by
      dsimp only [textExtent, rodataExtent]
      omega
    rw [if_neg hempty, imageOf]
    simp only [List.foldl_cons, List.foldl_nil]
    rw [hsize, hcopied (Nat.le_add_right _ _), copyExtent_of_holds hheld.rodata]
    · rw [rodataExtent, hplace]
    · rw [rodataExtent, size_rodataSection]
    · rw [Bytes.size_overwrite, Bytes.size_zeros]
      dsimp only [rodataExtent]
      omega

/-- The image of the file, and where the text lies in it. -/
theorem copyImage_build :
    copyImage blueprint.object = .ok (blueprint.image, blueprint.textRange) := by
  have hfile : blueprint.object.file = blueprint.build := by rw [object]
  rw [copyImage, h.textRange_build]
  simp only [bind, Except.bind, h.mappedExtents_build, hfile, h.imageOf_build]
  rfl

-- ════════════════════════════════════════════════════════════════════════
-- Calls
-- ════════════════════════════════════════════════════════════════════════

theorem slotCount_le : blueprint.textRange.slotCount ≤ UInt32.size := by
  have hslots := blueprint.slotCount_textRange
  obtain ⟨⟩ := h.placed
  simp only [UInt32.size, slotSize] at hslots ⊢
  omega

theorem bareSlotCount_le :
    TextRange.slotCount { start := 0, stop := blueprint.text.size } ≤ UInt32.size := by
  have hslots := h.slotCount_le
  rw [slotCount_textRange] at hslots
  exact hslots

/-- The calls of the image are resolved like those of the bare text. -/
theorem exists_resolveCalls {linkage : Linkage}
    (hlinkage : (Linkage.ofImage blueprint.textSection).resolveCalls
      { start := 0, stop := blueprint.textSection.size } = .ok linkage) :
    ∃ resolved, (Linkage.ofImage blueprint.image).resolveCalls blueprint.textRange =
        .ok resolved ∧
      resolved.image = placedImage linkage.image blueprint.rodataSection ∧
      (∀ hash, resolved.functions.slot? hash = linkage.functions.slot? hash) ∧
      resolved.calls = linkage.calls := by
  have hcount : TextRange.slotCount { start := 0, stop := blueprint.textSection.size } ≤
      UInt32.size := by
    rw [size_textSection]
    exact h.bareSlotCount_le
  have hsurrounded := Linkage.resolveCalls_surrounded (Bytes.zeros textOffset)
    blueprint.rodataSection hcount hlinkage
  rw [Bytes.size_zeros, size_textSection] at hsurrounded
  exact hsurrounded

-- ════════════════════════════════════════════════════════════════════════
-- Loading
-- ════════════════════════════════════════════════════════════════════════

/-- The entry is the slot that the blueprint says. -/
theorem entrySlot_build (hentry : slotSize * blueprint.entryPc < blueprint.text.size) :
    entrySlot blueprint.object blueprint.textRange = .ok blueprint.entryPc := by
  have hbase : blueprint.object.textSection.header.addr.toNat = textOffset := by
    rw [textSection_object]
    rfl
  have haddress : blueprint.object.header.entry.toNat =
      textOffset + slotSize * blueprint.entryPc := by
    obtain ⟨⟩ := h.placed
    exact toNat_ofNat (by omega)
  have hsize : blueprint.textRange.size = blueprint.text.size := by
    rw [TextRange.size, textRange, Nat.add_sub_cancel_left]
  unfold entrySlot
  simp only [hbase, haddress, hsize, Nat.add_sub_cancel_left, Nat.mul_mod_right, hentry,
    Nat.le_add_right, and_self, if_true]
  rw [Nat.mul_div_cancel_left _ (by decide)]

omit h in
theorem isSbfV2_object (blueprint : Blueprint) :
    blueprint.object.isSbfV2 = blueprint.sbfV2 := by
  have hflags : blueprint.object.header.flags = if blueprint.sbfV2 then sbfV2Flags else 0 := rfl
  rw [Object.isSbfV2, hflags]
  cases blueprint.sbfV2 <;> rfl

/-- A file that is written is loaded if its image can be linked. -/
theorem load_build (hentry : slotSize * blueprint.entryPc < blueprint.text.size)
    {linkage : Linkage} {linked : Linker} (hlinks : blueprint.Links linkage linked) :
    load blueprint.build =
      .ok
        { program :=
            { image := linked.image
              text := blueprint.textRange
              entryPc := blueprint.entryPc
              functions := linked.functions
              sbfV2 := blueprint.sbfV2 }
          counts := linked.counts } := by
  have hrelocations : blueprint.object.relocations =
      blueprint.relocations.map blueprint.relocationRecord := by rw [object]
  unfold load
  simp only [h.ofFile_build, bind, Except.bind, h.copyImage_build, hlinks.calls, hrelocations,
    hlinks.relocations, h.entrySlot_build hentry, isSbfV2_object]
  rfl

end Buildable

/-- The file of a bare text is loaded if its calls can be resolved, with the same functions and with
the resolved text in the image. -/
theorem exists_load_ofText {text : ByteArray} {linkage : Linkage} (hnonempty : 0 < text.size)
    (haligned : text.size % slotSize = 0) (hsize : (ofText text).build.size ≤ maxFileSize)
    (hlinkage : (Linkage.ofImage text).resolveCalls { start := 0, stop := text.size } =
      .ok linkage) :
    ∃ loaded, load (ofText text).build = .ok loaded ∧
      loaded.program.image = placedImage linkage.image ByteArray.empty ∧
      loaded.program.text = { start := textOffset, stop := textOffset + text.size } ∧
      loaded.program.entryPc = 0 ∧
      ∀ hash, loaded.program.functions.slot? hash = linkage.functions.slot? hash := by
  have hbuild : (ofText text).Buildable := ⟨rfl, hnonempty, haligned, hsize⟩
  obtain ⟨resolved, hresolved, himage, hfunctions, _⟩ := hbuild.exists_resolveCalls hlinkage
  have hlinks : (ofText text).Links resolved
      { image := resolved.image
        functions := resolved.functions
        counts :=
          { calls := resolved.calls, abs64 := 0, relative := 0, functions := 0, syscalls := 0 } } :=
    ⟨hresolved, rfl⟩
  exact ⟨_, hbuild.load_build hnonempty hlinks, himage, rfl, rfl, hfunctions⟩

end Blueprint

end SbfMachine.Link
