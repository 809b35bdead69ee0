import SbfMachine.Proofs.Link.Blueprint.LinkedImage
import SbfMachine.Proofs.Link.MappedSections
import SbfMachine.Proofs.Link.Patches
import SbfMachine.Proofs.Program.Calls

/-!
# What an image contains

An image is copied from the file and then linked. Linking stores into fields of fixed places: the
immediates of relative calls, and the fields of relocations, whose kinds tell where they are. All
other bytes are as they were copied: those of the sections that belong to the image at their file
offsets, and zero between them. This holds for any relocations, also for those that meet each other
or lie between sections.

## Main definitions

- `Link.Stores` — the fields of a relocation
- `Link.Linked` — the places that linking can change
- `Link.ImageContent` — what stands in the image of a file

## Main statements

- `Link.byteAt_imageOf` — the bytes of an image before it is linked
- `Link.Resolves.stores_of_covered` — a relocation writes into its fields only
- `Link.imageContent_of_load` — every file that is loaded
-/

namespace SbfMachine

open Bytes (AgreeExcept InWindow byteAt)

namespace Link

open Elf

-- ════════════════════════════════════════════════════════════════════════
-- Copying
-- ════════════════════════════════════════════════════════════════════════

/-- The place `i` lies in a range. -/
def Extent.Covers (extent : Extent) (i : Nat) : Prop :=
  extent.start ≤ i ∧ i < extent.stop

theorem byteAt_copyExtent {file image : ByteArray} {extent : Extent}
    (hrange : extent.start ≤ extent.stop) (hfile : extent.stop ≤ file.size)
    (himage : extent.stop ≤ image.size) (i : Nat) :
    (extent.Covers i → byteAt (copyExtent file image extent) i = byteAt file i) ∧
      (¬extent.Covers i → byteAt (copyExtent file image extent) i = byteAt image i) := by
  have hlength : (file.extract extent.start extent.stop).size = extent.stop - extent.start := by
    rw [ByteArray.size_extract]
    omega
  rw [copyExtent, ← Bytes.overwrite_extract hrange hfile himage, Bytes.byteAt_overwrite, hlength]
  constructor
  · rintro ⟨hstart, hstop⟩
    rw [if_pos (by omega), Bytes.byteAt_extract, if_pos (by omega), Nat.add_sub_cancel' hstart]
  · intro hcovers
    rw [Extent.Covers] at hcovers
    rw [if_neg (by omega)]

theorem byteAt_foldl_copyExtent {file image : ByteArray} {extents : List Extent}
    (hinside : ∀ extent ∈ extents, extent.start < extent.stop ∧ extent.stop ≤ file.size)
    (himage : ∀ extent ∈ extents, extent.stop ≤ image.size) (i : Nat) :
    ((byteAt image i = byteAt file i ∨ ∃ extent ∈ extents, extent.Covers i) →
        byteAt (extents.foldl (copyExtent file) image) i = byteAt file i) ∧
      ((∀ extent ∈ extents, ¬extent.Covers i) →
        byteAt (extents.foldl (copyExtent file) image) i = byteAt image i) := by
  induction extents generalizing image with
  | nil =>
    refine ⟨?_, fun _ => rfl⟩
    rintro (hbyte | ⟨extent, hmem, -⟩)
    · exact hbyte
    · exact absurd hmem List.not_mem_nil
  | cons first extents ih =>
    obtain ⟨hrange, hfile⟩ := hinside first List.mem_cons_self
    have hfirst := himage first List.mem_cons_self
    have hsize := size_copyExtent (Nat.le_of_lt hrange) hfile hfirst
    obtain ⟨hcovered, hfree⟩ := byteAt_copyExtent (Nat.le_of_lt hrange) hfile hfirst i
    obtain ⟨hcopied, hkept⟩ := @ih (copyExtent file image first)
      (fun extent h => hinside extent (List.mem_cons_of_mem first h))
      (fun extent h => by
        rw [hsize]
        exact himage extent (List.mem_cons_of_mem first h))
    rw [List.foldl_cons]
    constructor
    · intro h
      apply hcopied
      by_cases hplace : first.Covers i
      · exact .inl (hcovered hplace)
      · rcases h with hbyte | ⟨extent, hmem, hlater⟩
        · exact .inl ((hfree hplace).trans hbyte)
        · rcases List.mem_cons.1 hmem with rfl | hmem
          · exact absurd hlater hplace
          · exact .inr ⟨extent, hmem, hlater⟩
    · intro hnone
      rw [hkept fun extent h => hnone extent (List.mem_cons_of_mem first h),
        hfree (hnone first List.mem_cons_self)]

/-- An image has the bytes of the file where it is copied, and is zero elsewhere. -/
theorem byteAt_imageOf {file : ByteArray} {extents : List Extent}
    (hinside : ∀ extent ∈ extents, extent.start < extent.stop ∧ extent.stop ≤ file.size) (i : Nat) :
    ((∃ extent ∈ extents, extent.Covers i) → byteAt (imageOf file extents) i = byteAt file i) ∧
      ((∀ extent ∈ extents, ¬extent.Covers i) → byteAt (imageOf file extents) i = 0) := by
  have hfits : ∀ extent ∈ extents, extent.stop ≤
      (Bytes.zeros (extents.foldl (fun size extent => max size extent.stop) 0)).size := by
    rw [Bytes.size_zeros]
    exact (le_foldl_max_stop extents 0).2
  obtain ⟨hcopied, hkept⟩ := byteAt_foldl_copyExtent hinside hfits i
  refine ⟨fun hcovered => hcopied (.inr hcovered), fun hnone => ?_⟩
  rw [imageOf, hkept hnone, Bytes.byteAt_zeros]

theorem foldl_max_stop_mem (extents : List Extent) (start : Nat) :
    extents.foldl (fun size extent => max size extent.stop) start = start ∨
      ∃ extent ∈ extents,
        extent.stop = extents.foldl (fun size extent => max size extent.stop) start := by
  induction extents generalizing start with
  | nil => exact .inl rfl
  | cons first extents ih =>
    rw [List.foldl_cons]
    rcases ih (max start first.stop) with hsame | ⟨extent, hmem, hstop⟩
    · rw [hsame]
      rcases Nat.le_total first.stop start with hle | hle
      · exact .inl (Nat.max_eq_left hle)
      · exact .inr ⟨first, List.mem_cons_self, (Nat.max_eq_right hle).symm⟩
    · exact .inr ⟨extent, List.mem_cons_of_mem first hmem, hstop⟩

/-- Every range of an image is that of a section that is copied. -/
theorem exists_isCopied_of_mem {object : Object} {extents : List Extent}
    (h : mappedExtents object = .ok extents) {extent : Extent} (hmem : extent ∈ extents) :
    ∃ candidate ∈ object.sections.toList, IsCopied candidate ∧
      Extent.ofSection candidate.header = extent := by
  revert extent
  refine foldlM_ok_induction
    (fun extents => ∀ {extent}, extent ∈ extents → ∃ candidate ∈ object.sections.toList,
      IsCopied candidate ∧ Extent.ofSection candidate.header = extent)
    h (fun hmem => absurd hmem List.not_mem_nil) ?_
  intro before candidate after hcandidate hbefore hstep
  obtain ⟨_, ⟨_, rfl⟩ | ⟨hdata, _, _, rfl⟩⟩ := mapSection_eq_ok hstep
  · exact hbefore
  · intro extent hextent
    rcases List.mem_append.1 hextent with hold | hnew
    · exact hbefore hold
    · obtain rfl := List.mem_singleton.1 hnew
      obtain ⟨hsection, hname⟩ := List.mem_filter.1 hcandidate
      exact ⟨candidate, hsection, ⟨List.contains_iff_mem.1 hname, hdata⟩, rfl⟩

/-- The range of a section that is copied is one of the ranges of the image. -/
theorem mem_of_isCopied {object : Object} {extents : List Extent}
    (h : mappedExtents object = .ok extents) {candidate : Elf.Section}
    (hmem : candidate ∈ object.sections.toList) (hcopied : IsCopied candidate) :
    Extent.ofSection candidate.header ∈ extents :=
  (mem_of_foldlM_mapSection h).2 candidate
    (List.mem_filter.2 ⟨hmem, List.contains_iff_mem.2 hcopied.1⟩) hcopied.2

-- ════════════════════════════════════════════════════════════════════════
-- Fields
-- ════════════════════════════════════════════════════════════════════════

/-- The place `i` belongs to one of the immediates of the two slots from `place` on. -/
def InImmediates (place i : Nat) : Prop :=
  InWindow (place + immediateOffset) immediateSize i ∨
    InWindow (place + secondImmediateOffset) immediateSize i

/-- The place `i` belongs to a field of a relocation. -/
def Stores (text : TextRange) (relocation : Relocation) (i : Nat) : Prop :=
  let place := relocation.offset.toNat
  match RelocationKind.ofNumber? relocation.kind with
  | some .abs64 => InImmediates place i
  | some .relative =>
    if text.contains place then InImmediates place i else InWindow place addressSize i
  | some .call => InWindow (place + immediateOffset) immediateSize i
  | some .ignored | none => False

section Fields

variable {object : Object} {text : TextRange} {image : ByteArray} {place i : Nat}
  {patches : List Patch}

theorem inImmediates_of_covered {address : UInt64}
    (h : wideImmediatePatches image place address = .ok patches) (hcovered : Covered patches i) :
    InImmediates place i := by
  unfold wideImmediatePatches at h
  split at h
  · obtain rfl := Except.ok.inj h
    exact covered_widePatches_iff.1 hcovered
  · cases h

theorem inWindow_of_covered {field width : Nat} {value : UInt64}
    (h : fieldPatch image place field width value = .ok patches) (hcovered : Covered patches i) :
    InWindow (place + field) width i := by
  unfold fieldPatch at h
  split at h
  · obtain rfl := Except.ok.inj h
    simpa only [covered_cons_iff, not_covered_nil, or_false] using hcovered
  · cases h

/-- A relocation writes into its fields only. -/
theorem Resolves.stores_of_covered {functions : FunctionTable} {counts : RelocationCounts}
    {relocation : Relocation} {resolution : Resolution}
    (h : Resolves object text image functions counts relocation resolution)
    (hcovered : Covered resolution.patches i) : Stores text relocation i := by
  unfold Stores
  cases h with
  | ignored hkind => exact absurd hcovered not_covered_nil
  | abs64 hkind hpatches =>
    obtain ⟨symbol, _, hpatches⟩ := exists_of_bind_eq_ok hpatches
    obtain ⟨addend, _, hpatches⟩ := exists_of_bind_eq_ok hpatches
    simp only [hkind]
    exact inImmediates_of_covered hpatches hcovered
  | relativeInText hkind hplace hpatches =>
    obtain ⟨low, _, hpatches⟩ := exists_of_bind_eq_ok hpatches
    obtain ⟨high, _, hpatches⟩ := exists_of_bind_eq_ok hpatches
    simp only [hkind, if_pos hplace]
    dsimp only at hpatches
    split at hpatches
    · cases hpatches
    · exact inImmediates_of_covered hpatches hcovered
  | relativeInData hkind hplace hpatches =>
    simp only [hkind, if_neg hplace]
    unfold resolveRelativeInData at hpatches
    split at hpatches
    all_goals
      obtain ⟨address, _, hpatches⟩ := exists_of_bind_eq_ok hpatches
      exact inWindow_of_covered hpatches hcovered
  | call hkind hsymbol hname htarget hpatches =>
    simp only [hkind]
    exact inWindow_of_covered hpatches hcovered

/-- Relocations, however they meet, change their fields only. -/
theorem Linker.agreeExcept_applyAll {linker linked : Linker} {relocations : List Relocation}
    (h : linker.applyAll object text relocations = .ok linked) :
    AgreeExcept (fun i => ∃ relocation ∈ relocations, Stores text relocation i) linked.image
      linker.image := by
  refine foldlM_ok_induction
    (fun after => AgreeExcept (fun i => ∃ relocation ∈ relocations, Stores text relocation i)
      after.image linker.image)
    h (.refl _ _) ?_
  intro before relocation after hmem hbefore hstep
  obtain ⟨resolution, hresolves, rfl⟩ := Linker.apply_eq_ok hstep
  refine AgreeExcept.trans ?_ hbefore
  refine (Link.agreeExcept_foldl_write resolution.patches before.image).mono fun i hcovered => ?_
  exact ⟨relocation, hmem, hresolves.stores_of_covered hcovered⟩

end Fields

-- ════════════════════════════════════════════════════════════════════════
-- Loaded images
-- ════════════════════════════════════════════════════════════════════════

/-- The places of an image that linking can change: the immediates of the slots that are relative
calls in the file, and the fields of relocations. -/
inductive Linked (file : ByteArray) (object : Object) (text : TextRange) (i : Nat) : Prop
  | call (pc : Nat) (hpc : pc < text.slotCount)
      (hcall : (Slot.atOffset file (text.slotOffset pc)).callDistance?.isSome = true)
      (hplace : InWindow (text.slotOffset pc + immediateOffset) immediateSize i)
  | relocation (relocation : Relocation) (hmem : relocation ∈ object.relocations)
      (hplace : Stores text relocation i)

/-- The image of a program that has been loaded from a file. -/
structure ImageContent (file : ByteArray) (object : Object) (program : Program) : Prop where
  /-- The text is the range of its section. -/
  text_eq : program.text =
    { start := object.textSection.header.offset.toNat, stop := object.textSection.header.stop }
  /-- What is copied lies inside the file, and inside the image. -/
  inside : ∀ candidate ∈ object.sections.toList, IsCopied candidate →
    candidate.header.stop ≤ file.size ∧ candidate.header.stop ≤ program.image.size
  /-- The image ends with the last section that is copied. -/
  last : ∃ candidate ∈ object.sections.toList, IsCopied candidate ∧
    candidate.header.stop = program.image.size
  copied : ∀ i, ¬Linked file object program.text i →
    ∀ candidate ∈ object.sections.toList, IsCopied candidate →
      (Extent.ofSection candidate.header).Covers i → byteAt program.image i = byteAt file i
  zero : ∀ i, ¬Linked file object program.text i →
    (∀ candidate ∈ object.sections.toList, IsCopied candidate →
      ¬(Extent.ofSection candidate.header).Covers i) → byteAt program.image i = 0

/-- The relative calls of an image are those of the file, for its text has been copied. -/
theorem atOffset_imageOf {file : ByteArray} {extents : List Extent} {text : TextRange}
    (hinside : ∀ extent ∈ extents, extent.start < extent.stop ∧ extent.stop ≤ file.size)
    (htext : (⟨text.start, text.stop⟩ : Extent) ∈ extents) {pc : Nat} (hpc : pc < text.slotCount) :
    Slot.atOffset (imageOf file extents) (text.slotOffset pc) =
      Slot.atOffset file (text.slotOffset pc) := by
  refine atOffset_congr fun i hi => (byteAt_imageOf hinside _).1 ⟨_, htext, ?_⟩
  simp only [Extent.Covers, TextRange.slotCount, TextRange.size, TextRange.slotOffset,
    slotSize] at hpc hi ⊢
  omega

/-- Linking changes the places that it can change and no others. -/
theorem agreeExcept_of_linking {file : ByteArray} {object : Object} {extents : List Extent}
    {text : TextRange} {linkage : Linkage} {counts : RelocationCounts} {linked : Linker}
    (hinside : ∀ extent ∈ extents, extent.start < extent.stop ∧ extent.stop ≤ file.size)
    (htext : (⟨text.start, text.stop⟩ : Extent) ∈ extents)
    (hcalls : (Linkage.ofImage (imageOf file extents)).resolveCalls text = .ok linkage)
    (hrelocations :
      Linker.applyAll object text
        { image := linkage.image, functions := linkage.functions, counts } object.relocations =
          .ok linked) :
    AgreeExcept (Linked file object text) linked.image (imageOf file extents) := by
  have hresolved := Linkage.resolved_of_resolveCalls hcalls
  have hnamed := RelativeCall.agreeExcept_foldl_write text
    (relativeCalls text (imageOf file extents) 0 text.slotCount) (imageOf file extents)
  have himage : (relativeCalls text (imageOf file extents) 0 text.slotCount).foldl
      (RelativeCall.write text) (imageOf file extents) = linkage.image := hresolved.image.symm
  rw [himage] at hnamed
  refine ((Linker.agreeExcept_applyAll hrelocations).mono ?_).trans (hnamed.mono ?_)
  · rintro i ⟨relocation, hmem, hplace⟩
    exact .relocation relocation hmem hplace
  · rintro i ⟨call, hcall, hplace⟩
    obtain ⟨⟨_, hpc⟩, hat⟩ := mem_relativeCalls_iff.1 hcall
    obtain ⟨distance, hdistance, _⟩ := RelativeCall.at?_eq_some_iff.1 hat
    rw [Nat.zero_add] at hpc
    rw [atOffset_imageOf hinside htext hpc] at hdistance
    exact .call call.pc hpc (Option.isSome_of_eq_some hdistance) hplace

/-- What stands in the image of a file: the sections that belong to it at their file offsets, zero
between them, and what linking has stored. -/
theorem imageContent_of_load {file : ByteArray} {loaded : Loaded} (h : load file = .ok loaded) :
    ∃ object, Object.ofFile file = .ok object ∧ ImageContent file object loaded.program := by
  obtain ⟨object, image, text, linkage, linked, entryPc, hobject, himage, hcalls, hrelocations,
    _, hprogram⟩ := exists_steps_of_load h
  refine ⟨object, hobject, ?_⟩
  have hfrom := Object.readFrom_of_ofFile hobject
  obtain ⟨range, hrange, hmapped⟩ := exists_of_bind_eq_ok himage
  obtain ⟨extents, hextents, hmapped⟩ := exists_of_bind_eq_ok hmapped
  obtain ⟨rfl, rfl⟩ := Prod.mk.inj (Except.ok.inj hmapped)
  obtain ⟨hstart, hstop, _, hpositive, _⟩ := textRange_eq_ok hrange
  have htext := text_mem_of_mappedExtents hobject hrange hextents
  have hinside := mappedExtents_inside hextents
  rw [hfrom.file_eq] at hinside hcalls
  have hlinked := agreeExcept_of_linking hinside htext hcalls hrelocations
  have hsize := hlinked.size_eq.trans (size_imageOf hinside)
  rw [hprogram]
  refine ⟨?_, fun candidate hmem hcopied => ?_, ?_, fun i hi candidate hmem hcopied hcovers => ?_,
    fun i hi hnone => ?_⟩
  · rw [← hstart, ← hstop]
  · have hextent := mem_of_isCopied hextents hmem hcopied
    refine ⟨(hinside _ hextent).2, ?_⟩
    rw [hsize]
    exact (le_foldl_max_stop extents 0).2 _ hextent
  · rw [hsize]
    rcases foldl_max_stop_mem extents 0 with hzero | ⟨extent, hextent, hlast⟩
    · have hle := (le_foldl_max_stop extents 0).2 _ htext
      have hlt := Nat.lt_of_sub_pos hpositive
      dsimp only at hle
      omega
    · obtain ⟨candidate, hmem, hcopied, rfl⟩ := exists_isCopied_of_mem hextents hextent
      exact ⟨candidate, hmem, hcopied, hlast⟩
  · rw [hlinked.byteAt i hi]
    exact (byteAt_imageOf hinside i).1 ⟨_, mem_of_isCopied hextents hmem hcopied, hcovers⟩
  · rw [hlinked.byteAt i hi]
    refine (byteAt_imageOf hinside i).2 fun extent hextent => ?_
    obtain ⟨candidate, hmem, hcopied, rfl⟩ := exists_isCopied_of_mem hextents hextent
    exact hnone candidate hmem hcopied

/-- The file of a text with a relative call, and with links of three kinds. -/
def addressBlueprint : Blueprint :=
  .ofAddresses addressText (Bytes.zeros 24) 0 false addressLinks

/-- Linking can change the immediate of its call, the immediates of its constants and a word behind
the text. -/
theorem linked_addressBlueprint : ∀ i ∈ [124, 140, 156, 176],
    Linked addressBlueprint.build addressBlueprint.object { start := 120, stop := 168 } i := by
  have htext : Bytes.Holds addressBlueprint.build 120 _ := (Blueprint.heldBy_build rfl).text
  have hslot : Slot.atOffset addressBlueprint.build (120 + slotSize * 4) =
      Slot.atOffset addressBlueprint.textSection (slotSize * 4) :=
    congrArg Slot.ofWord (htext.readLE (by decide +kernel))
  intro i hi
  simp only [List.mem_cons, List.not_mem_nil, or_false] at hi
  obtain rfl | rfl | rfl | rfl := hi
  · exact .relocation _ (.head _) (.inl (by decide))
  · exact .relocation _ (.tail _ (.tail _ (.head _))) (.inl (by decide))
  · refine .call 4 (by decide) ?_ (by decide)
    dsimp only [TextRange.slotOffset]
    rw [hslot]
    decide +kernel
  · exact .relocation _ (.tail _ (.head _)) (by decide : Bytes.InWindow 176 8 176)

/-- What stands in the image of that file, where linking has stored something and elsewhere. -/
theorem imageContent_of_addressBlueprint :
    ∃ loaded, load addressBlueprint.build = .ok loaded ∧
      ∃ object, Object.ofFile addressBlueprint.build = .ok object ∧
        ImageContent addressBlueprint.build object loaded.program ∧
        ∀ i ∈ [124, 140, 156, 176],
          Linked addressBlueprint.build object loaded.program.text i := by
  obtain ⟨plain, hplain⟩ := exists_ofText_addressText
  obtain ⟨hobject, functions, counts, hload⟩ :=
    Blueprint.exists_load_of_addresses false hplain
      (show 0 < addressText.size / slotSize by decide +kernel) addressLinks_valid (by decide)
      addressLinks_agree (size_addressLinks_le false)
  obtain ⟨object, hread, hcontent⟩ := imageContent_of_load hload
  obtain rfl := Except.ok.inj (hobject.symm.trans hread)
  exact ⟨_, hload, _, hobject, hcontent, linked_addressBlueprint⟩

end Link

end SbfMachine
