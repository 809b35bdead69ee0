import SbfMachine.Proofs.Checked.Metadata
import SbfMachine.Proofs.Link.Loading

/-!
# Checked copying and resolving of calls

The image of an object is copied, and the calls of its text are resolved, with operations that may
trap. They do not: the place of a section is checked before its end is computed, all ranges that
are copied lie inside the file and the image, and so do all slots of the text.

## Main definitions

- `Checked.copyImage` — copying the image
- `Checked.resolveCalls` — resolving the calls of a text

## Main statements

- `Checked.copyImage_eq` — copying does not trap
- `Checked.resolveCalls_eq` — nor does resolving calls
-/

namespace SbfMachine

open Elf Link

namespace Checked

-- ════════════════════════════════════════════════════════════════════════
-- Ranges
-- ════════════════════════════════════════════════════════════════════════

def textSection (object : Object) : Checked Elf.Section :=
  element object.sections object.text.val

/-- The range of a section, whose end has to be a word. -/
def extent (header : SectionHeader) : Checked Extent := do
  let stop ← add header.offset.toNat header.size.toNat
  return { start := header.offset.toNat, stop }

def textRange (object : Object) : Checked TextRange := do
  let text ← textSection object
  lift (checkPlacement object.file.size text)
  let range ← extent text.header
  if range.isEmpty ∨ (range.stop - range.start) % slotSize ≠ 0 then
    throw (.invalidTextSize (range.stop - range.start))
  else return { start := range.start, stop := range.stop }

def mapSection (fileSize : Nat) (mapped : List Extent) (candidate : Elf.Section) :
    Checked (List Extent) := do
  lift (checkPlacement fileSize candidate)
  let range ← extent candidate.header
  if range.isEmpty then return mapped
  else if mapped.any fun other => other.overlaps range then
    throw (.invalidSection candidate.name .overlapsSection)
  else if fileSize < range.stop then throw (.truncated .sectionData range.start)
  else return mapped ++ [range]

def mappedExtents (object : Object) : Checked (List Extent) :=
  (object.sections.toList.filter fun candidate => mappedNames.contains candidate.name).foldlM
    (mapSection object.file.size) []

theorem textSection_eq (object : Object) : textSection object = pure object.textSection :=
  element_eq object.text.isLt

/-- The end of a section that is well placed is a word. -/
theorem extent_eq {fileSize : Nat} {candidate : Elf.Section}
    (h : checkPlacement fileSize candidate = .ok ()) :
    extent candidate.header = pure (Extent.ofSection candidate.header) := by
  obtain ⟨_, haddress, hregion⟩ := checkPlacement_eq_ok_iff.1 h
  have hstack : stackBase.toNat < UInt64.size := stackBase.toNat_lt
  rw [haddress] at hregion
  rw [extent, add_eq (by omega), pure_bind]
  rfl

theorem textRange_eq (object : Object) : textRange object = lift (Link.textRange object) := by
  rw [textRange, textSection_eq, pure_bind, Link.textRange]
  cases hplaced : checkPlacement object.file.size object.textSection with
  | error => rfl
  | ok =>
    have hlength : (Extent.ofSection object.textSection.header).stop -
        (Extent.ofSection object.textSection.header).start =
          object.textSection.header.size.toNat := Nat.add_sub_cancel_left _ _
    have hempty : (Extent.ofSection object.textSection.header).isEmpty = true ↔
        object.textSection.header.size = 0 := by
      rw [← UInt64.toNat_inj, Extent.isEmpty, decide_eq_true_eq, ← Nat.sub_eq_zero_iff_le, hlength]
      rfl
    rw [lift_ok, pure_bind, extent_eq hplaced, pure_bind, hlength]
    simp only [hempty, lift_ite]
    rfl

theorem mapSection_eq (fileSize : Nat) (mapped : List Extent) (candidate : Elf.Section) :
    mapSection fileSize mapped candidate = lift (Link.mapSection fileSize mapped candidate) := by
  rw [mapSection, Link.mapSection]
  cases hplaced : checkPlacement fileSize candidate with
  | error => rfl
  | ok =>
    dsimp only
    rw [lift_ok, pure_bind, extent_eq hplaced, pure_bind, lift_ite, lift_ite, lift_ite]
    rfl

theorem mappedExtents_eq (object : Object) :
    mappedExtents object = lift (Link.mappedExtents object) :=
  foldlM_eq_lift (fun _ _ => True) (fun before item _ _ => mapSection_eq _ before item)
    (fun _ _ _ _ _ _ => trivial) trivial

-- ════════════════════════════════════════════════════════════════════════
-- Images
-- ════════════════════════════════════════════════════════════════════════

/-- Copies a range of the file, if it is one, to the same place of the image. -/
def copyExtent (file image : ByteArray) (range : Extent) : Checked ByteArray :=
  if range.start ≤ range.stop ∧ range.stop ≤ file.size then
    replace image range.start range.stop (file.extract range.start range.stop)
  else throw (.truncated .sectionData range.start)

def imageOf (file : ByteArray) (extents : List Extent) : Checked ByteArray :=
  let size := extents.foldl (fun size extent => max size extent.stop) 0
  extents.foldlM (copyExtent file) (Bytes.zeros size)

def copyImage (object : Object) : Checked (ByteArray × TextRange) := do
  let text ← textRange object
  let extents ← mappedExtents object
  let image ← imageOf object.file extents
  return (image, text)

theorem copyExtent_eq {file image : ByteArray} {range : Extent} (hrange : range.start ≤ range.stop)
    (hfile : range.stop ≤ file.size) (himage : range.stop ≤ image.size) :
    copyExtent file image range = pure (Link.copyExtent file image range) := by
  have hsize : (file.extract range.start range.stop).size = range.stop - range.start := by
    rw [ByteArray.size_extract]
    omega
  rw [copyExtent, if_pos ⟨hrange, hfile⟩, replace_eq hrange himage hsize,
    Bytes.overwrite_extract hrange hfile himage]
  rfl

theorem imageOf_eq {file : ByteArray} {extents : List Extent}
    (hinside : ∀ extent ∈ extents, extent.start < extent.stop ∧ extent.stop ≤ file.size) :
    imageOf file extents = pure (Link.imageOf file extents) := by
  -- All images on the way have the size that the last range requires.
  refine foldlM_eq
    (fun image => image.size = extents.foldl (fun size extent => max size extent.stop) 0)
    (fun image extent hmem hsize => ?_) (fun image extent hmem hsize => ?_) (Bytes.size_zeros _)
  all_goals
    obtain ⟨hrange, hfile⟩ := hinside extent hmem
    have himage : extent.stop ≤ image.size := by
      rw [hsize]
      exact (le_foldl_max_stop extents 0).2 extent hmem
  · exact copyExtent_eq (Nat.le_of_lt hrange) hfile himage
  · rw [size_copyExtent (Nat.le_of_lt hrange) hfile himage, hsize]

theorem copyImage_eq (object : Object) : copyImage object = lift (Link.copyImage object) := by
  refine bind_eq_lift (textRange_eq object) fun text _ => ?_
  refine bind_eq_lift (mappedExtents_eq object) fun extents hextents => ?_
  rw [imageOf_eq (mappedExtents_inside hextents), pure_bind]
  rfl

-- ════════════════════════════════════════════════════════════════════════
-- Calls
-- ════════════════════════════════════════════════════════════════════════

/-- Replaces the slot of a call by the same slot with a hash as its immediate. -/
def rewriteCall (text : TextRange) (pc : Nat) (hash : UInt32) (image : ByteArray) :
    Checked ByteArray := do
  let code := image.extract text.start text.stop
  let start ← mul pc slotSize
  let stop ← add start slotSize
  let slot ← slice code start stop
  let code ← replace code start stop
    (Bytes.writeLE slot immediateOffset hash.toUInt64 immediateSize)
  return Bytes.overwrite image text.start code

def resolveCall (text : TextRange) (pc : Nat) (linkage : Linkage) : Checked Linkage :=
  match (Slot.atOffset linkage.image (text.slotOffset pc)).callDistance? with
  | none => return linkage
  | some distance => do
    let next ← addSigned pc 1
    let target ← addSigned next distance
    if target < 0 ∨ text.slotCount ≤ target then throw (.callOutOfBounds pc target)
    else
      let (hash, functions) ← lift (linkage.functions.register target.toNat)
      let image ← rewriteCall text pc hash linkage.image
      let calls ← add linkage.calls 1
      return { image, functions, calls }

def resolveCallsFrom (text : TextRange) (pc : Nat) (linkage : Linkage) :
    (count : Nat) → Checked Linkage
  | 0 => return linkage
  | count + 1 => do
    let resolved ← resolveCall text pc linkage
    resolveCallsFrom text (pc + 1) resolved count

/-- Resolves the relative calls of a text, if that is a range of the image. -/
def resolveCalls (text : TextRange) (linkage : Linkage) : Checked Linkage :=
  if text.start ≤ text.stop ∧ text.stop ≤ linkage.image.size then
    resolveCallsFrom text 0 linkage text.slotCount
  else throw (.invalidTextSize text.size)

section Calls

variable {text : TextRange}

/-- A new immediate in a slot of the code is one in the image. -/
theorem overwrite_slot {image : ByteArray} {pc : Nat} (hash : UInt64)
    (himage : text.stop ≤ image.size) (hpc : pc * slotSize + slotSize ≤ text.size) :
    let code := image.extract text.start text.stop
    let slot := code.extract (pc * slotSize) (pc * slotSize + slotSize)
    Bytes.overwrite image text.start (Bytes.overwrite code (pc * slotSize)
        (Bytes.writeLE slot immediateOffset hash immediateSize)) =
      Bytes.writeLE image (text.slotOffset pc + immediateOffset) hash immediateSize := by
  intro code slot
  have hcode : code.size = text.size := by
    rw [ByteArray.size_extract, TextRange.size]
    omega
  have hfield : pc * slotSize + immediateOffset + immediateSize ≤ pc * slotSize + slotSize := by
    simp only [immediateOffset, immediateSize, slotSize]
    omega
  rw [Bytes.overwrite_writeLE_extract hash (by omega) hfield, Bytes.writeLE_eq_overwrite,
    Bytes.overwrite_overwrite_extract himage, Bytes.writeLE_eq_overwrite, TextRange.slotOffset,
    Nat.mul_comm slotSize pc, Nat.add_assoc]
  have hpositive : 0 < slotSize := by decide
  rw [Bytes.size_encodeLE]
  simp only [TextRange.size] at hpc
  omega

theorem rewriteCall_eq {image : ByteArray} {pc : Nat} (hash : UInt32)
    (himage : text.stop ≤ image.size) (hpc : pc * slotSize + slotSize ≤ text.size)
    (hsize : text.size < UInt64.size) :
    rewriteCall text pc hash image =
      pure (Bytes.writeLE image (text.slotOffset pc + immediateOffset) hash.toUInt64
        immediateSize) := by
  have hcode : (image.extract text.start text.stop).size = text.size := by
    rw [ByteArray.size_extract, TextRange.size]
    omega
  have hslot : ((image.extract text.start text.stop).extract (pc * slotSize)
      (pc * slotSize + slotSize)).size = pc * slotSize + slotSize - pc * slotSize := by
    rw [ByteArray.size_extract]
    omega
  rw [rewriteCall, mul_eq (by omega), pure_bind, add_eq (by omega), pure_bind,
    slice_eq (by omega) (by omega), pure_bind,
    replace_eq (by omega) (by omega) (by rw [Bytes.size_writeLE, hslot]), pure_bind,
    overwrite_slot hash.toUInt64 himage hpc]

/-- The distance of a call fits into a signed word with any slot number that does. -/
theorem callDistance?_bounds {slot : Slot} {distance : Int}
    (h : slot.callDistance? = some distance) : -2 ^ 31 ≤ distance ∧ distance < 2 ^ 31 := by
  unfold Slot.callDistance? at h
  split at h
  · obtain rfl := Option.some.inj h
    exact ⟨slot.imm.le_toInt, slot.imm.toInt_lt⟩
  · cases h

theorem resolveCall_eq {pc : Nat} {linkage : Linkage} (himage : text.stop ≤ linkage.image.size)
    (hpc : pc < text.slotCount) (hcalls : linkage.calls ≤ pc) (hsize : text.size ≤ maxFileSize) :
    resolveCall text pc linkage = lift (Linkage.resolveCall text pc linkage) := by
  have hslot : pc * slotSize + slotSize ≤ text.size := by
    simp only [TextRange.slotCount, slotSize] at hpc ⊢
    omega
  simp only [maxFileSize, slotSize] at hsize hslot
  unfold resolveCall Linkage.resolveCall
  cases hdistance :
      (Slot.atOffset linkage.image (text.slotOffset pc)).callDistance? with
  | none => rfl
  | some distance =>
    have hbounds := callDistance?_bounds hdistance
    dsimp only
    rw [addSigned_eq (by omega), pure_bind, addSigned_eq (by omega), pure_bind, lift_ite]
    split
    · rfl
    · cases linkage.functions.register (pc + 1 + distance).toNat with
      | error => rfl
      | ok registered =>
        obtain ⟨hash, functions⟩ := registered
        dsimp only
        rw [lift_ok, pure_bind,
          rewriteCall_eq hash himage (by simp only [slotSize]; omega)
            (by simp only [UInt64.size]; omega),
          pure_bind, add_eq (by simp only [UInt64.size]; omega), pure_bind]
        rfl

theorem resolveCallsFrom_eq {pc count : Nat} {linkage : Linkage}
    (himage : text.stop ≤ linkage.image.size) (hcount : pc + count ≤ text.slotCount)
    (hcalls : linkage.calls ≤ pc) (hsize : text.size ≤ maxFileSize) :
    resolveCallsFrom text pc linkage count =
      lift (Linkage.resolveCallsFrom text pc linkage count) := by
  induction count generalizing pc linkage with
  | zero => rfl
  | succ count ih =>
    rw [resolveCallsFrom, Linkage.resolveCallsFrom]
    refine bind_eq_lift (resolveCall_eq himage (by omega) hcalls hsize) fun resolved hresolved => ?_
    have himage' := Linkage.size_of_resolveCall hresolved
    have hcalls' := Linkage.calls_of_resolveCall hresolved
    exact ih (by rwa [himage']) (by omega) (by omega)

end Calls

/-- Resolving the calls of an image that covers the text does not trap. -/
theorem resolveCalls_eq {text : TextRange} {image : ByteArray} (hrange : text.start ≤ text.stop)
    (himage : text.stop ≤ image.size) (hsize : text.size ≤ maxFileSize) :
    resolveCalls text (Linkage.ofImage image) =
      lift ((Linkage.ofImage image).resolveCalls text) := by
  rw [resolveCalls, if_pos ⟨hrange, himage⟩]
  exact resolveCallsFrom_eq himage (Nat.le_of_eq (Nat.zero_add _)) (Nat.zero_le _) hsize

end Checked

end SbfMachine
