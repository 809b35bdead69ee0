import SbfMachine.Proofs.Link.Blueprint.AddressLinks

/-!
# Linked images

Applying the relocations of a file with linked addresses replaces each address, in whatever form the
file holds it, by its address in the program region. Each relocation finds what the file holds, as
no other one writes there. In the end every place in which the image differs from that of the bare
text has been written to, so that the image is the same for both versions of the format.

## Main definitions

- `AddressLink.Ready` — the places of a link hold what the file holds there
- `linkedImage` — the image of a bare text and constants with linked addresses
- `AddressesLinked` — what a program with linked addresses loads and holds

## Main statements

- `AddressLink.exists_apply` — applying one relocation
- `AddressLink.exists_applyAll` — applying all of them
- `Blueprint.Buildable.exists_links_of_addresses` — the image of the file when it is linked
- `load_ofAddresses` — the file is loaded, and as what
-/

namespace SbfMachine.Link

open Elf
open Blueprint (textOffset)
open Bytes (AgreeExcept InWindow)

-- ════════════════════════════════════════════════════════════════════════
-- Relocations
-- ════════════════════════════════════════════════════════════════════════

namespace AddressLink

variable {blueprint : Blueprint} {link : AddressLink} {image : ByteArray}

/-- The places of the link hold what the file holds there. -/
def Ready (blueprint : Blueprint) (image : ByteArray) (link : AddressLink) : Prop :=
  AgreeExcept (fun i => ¬Covered (link.patches blueprint.text) i) image
    ((link.sources blueprint.text blueprint.sbfV2).foldl Patch.write
      (placedImage blueprint.text blueprint.rodata))

theorem Ready.size_eq (hready : link.Ready blueprint image) :
    image.size = textOffset + blueprint.text.size + blueprint.rodata.size := by
  rw [AgreeExcept.size_eq hready, size_foldl_write, size_placedImage]

/-- A number at places of the link is the one in the file. -/
theorem Ready.readLE {start width : Nat} (hready : link.Ready blueprint image)
    (hwindow : ∀ i, InWindow start width i → Covered (link.patches blueprint.text) i) :
    Bytes.readLE image start width =
      Bytes.readLE ((link.sources blueprint.text blueprint.sbfV2).foldl Patch.write
        (placedImage blueprint.text blueprint.rodata)) start width :=
  AgreeExcept.readLE_eq hready fun i hi => not_not_intro (hwindow i hi)

/-- The file holds the constant of the bare text. -/
theorem Ready.readLE_abs64 {pc offset : Nat} {name : String}
    (hvalid : (abs64 pc name offset).Valid blueprint.text blueprint.rodata)
    (hready : (abs64 pc name offset).Ready blueprint image) :
    (Bytes.readLE image (textOffset + slotSize * pc + immediateOffset) immediateSize).toNat =
      (Slot.atOffset blueprint.text (slotSize * pc)).uimm.toNat := by
  have hend := (hvalid.wide pc rfl).end_le
  have htext := (holds_placedImage blueprint.text blueprint.rodata).1
  have hlt := (Bytes.toNat_readLE blueprint.text (slotSize * pc + 4) (show 4 ≤ 8 by decide)).2
  rw [hready.readLE fun i hi => covered_patches_iff.2 (.inl ⟨pc, rfl, .inl hi⟩), sources,
    List.foldl_nil, Nat.add_assoc, htext.readLE, Slot.uimm_atOffset, UInt64.toNat_toUInt32]
  · simp only [immediateOffset, immediateSize]
    omega
  · simp only [slotSize, immediateOffset, immediateSize] at hend ⊢
    omega

/-- The file holds the address in the two immediates, counted from the start of the image. -/
theorem Ready.readLE_textRelative {pc offset : Nat}
    (hvalid : (textRelative pc offset).Valid blueprint.text blueprint.rodata)
    (hready : (textRelative pc offset).Ready blueprint image) :
    (Bytes.readLE image (textOffset + slotSize * pc + immediateOffset) immediateSize).toNat =
        rodataStart blueprint.text + offset ∧
      (Bytes.readLE image (textOffset + slotSize * pc + secondImmediateOffset)
        immediateSize).toNat = 0 := by
  have hend := (hvalid.wide pc rfl).end_le
  have htarget : rodataStart blueprint.text + offset < 2 ^ 32 := hvalid.target_lt
  have hinside : textOffset + slotSize * pc + 2 * slotSize ≤
      (placedImage blueprint.text blueprint.rodata).size := by
    rw [size_placedImage]
    omega
  obtain ⟨hlow, hhigh⟩ := toNat_readLE_widePatches
    (UInt64.ofNat (rodataStart blueprint.text + offset)) hinside
  rw [UInt64.toNat_ofNat_of_lt' (by simp only [UInt64.size]; omega)] at hlow hhigh
  rw [Nat.mod_eq_of_lt htarget] at hlow
  rw [Nat.div_eq_of_lt htarget] at hhigh
  constructor
  · rw [hready.readLE fun i hi => covered_patches_iff.2 (.inl ⟨pc, rfl, .inl hi⟩)]
    exact hlow
  · rw [hready.readLE fun i hi => covered_patches_iff.2 (.inl ⟨pc, rfl, .inr hi⟩)]
    exact hhigh

/-- The file holds the address in all of the eight bytes, or in the last four of them. -/
theorem Ready.readLE_dataRelative {place offset : Nat}
    (haligned : blueprint.text.size % slotSize = 0)
    (hvalid : (dataRelative place offset).Valid blueprint.text blueprint.rodata)
    (hready : (dataRelative place offset).Ready blueprint image) :
    if blueprint.sbfV2 then
      (Bytes.readLE image (rodataStart blueprint.text + place) addressSize).toNat =
        rodataStart blueprint.text + offset
    else
      (Bytes.readLE image (rodataStart blueprint.text + place + immediateOffset)
        immediateSize).toNat = rodataStart blueprint.text + offset := by
  have hwindow := hvalid.window place rfl
  have htarget : rodataStart blueprint.text + offset < 2 ^ 32 := hvalid.target_lt
  have hvalue : (UInt64.ofNat (rodataStart blueprint.text + offset)).toNat =
      rodataStart blueprint.text + offset :=
    UInt64.toNat_ofNat_of_lt' (by simp only [UInt64.size]; omega)
  have hinside : rodataStart blueprint.text + place + addressSize ≤
      (placedImage blueprint.text blueprint.rodata).size := by
    rw [size_placedImage, rodataStart_eq haligned]
    omega
  cases hv2 : blueprint.sbfV2 with
  | true =>
    have hheld :=
      Bytes.holds_writeLE (UInt64.ofNat (rodataStart blueprint.text + offset)) hinside
    have hread := hheld.toNat_readLE (by decide)
    rw [if_pos rfl, hready.readLE fun i hi => covered_patches_iff.2 (.inr ⟨place, rfl, hi⟩),
      sources, hv2, if_pos rfl, List.foldl_cons, List.foldl_nil, Patch.write, hread, hvalue]
    exact Nat.mod_eq_of_lt (Nat.lt_trans htarget (by decide))
  | false =>
    have hinside' : rodataStart blueprint.text + place + immediateOffset + immediateSize ≤
        (placedImage blueprint.text blueprint.rodata).size := by
      simp only [addressSize, immediateOffset, immediateSize] at hinside ⊢
      omega
    have hcovered (i : Nat)
        (hi : InWindow (rodataStart blueprint.text + place + immediateOffset) immediateSize i) :
        Covered ((dataRelative place offset).patches blueprint.text) i := by
      refine covered_patches_iff.2 (.inr ⟨place, rfl, ?_⟩)
      simp only [InWindow, immediateOffset, immediateSize, addressSize] at hi ⊢
      omega
    have hheld :=
      Bytes.holds_writeLE (UInt64.ofNat (rodataStart blueprint.text + offset)) hinside'
    have hread := hheld.toNat_readLE (by decide)
    rw [if_neg Bool.false_ne_true, hready.readLE hcovered, sources, hv2,
      if_neg Bool.false_ne_true, List.foldl_cons, List.foldl_nil, Patch.write, hread, hvalue]
    exact Nat.mod_eq_of_lt htarget

variable (h : blueprint.Buildable)
include h

/-- The relocation of a constant with a symbol. -/
theorem resolves_abs64 {pc i : Nat} {name : String} {offset : Nat} {functions : FunctionTable}
    {counts : RelocationCounts}
    (hsymbol : blueprint.symbols[i]? = some { name, target := .data offset })
    (hvalid : (abs64 pc name offset).Valid blueprint.text blueprint.rodata)
    (hready : (abs64 pc name offset).Ready blueprint image) :
    Resolves blueprint.object blueprint.textRange image functions counts
      (blueprint.relocationRecord (.abs64 pc (i + 1)))
      { patches := (abs64 pc name offset).patches blueprint.text, functions
        counts := { counts with abs64 := counts.abs64 + 1 } } := by
  have hend := (hvalid.wide pc rfl).end_le
  have hsize := hready.size_eq
  have htarget := hvalid.target_lt
  have hnumber := (List.getElem?_eq_some_iff.1 hsymbol).1
  have hlength := h.symbols_length_le
  have hplaceLe : textOffset + slotSize * pc ≤ 67108864 := by
    obtain ⟨⟩ := h.placed
    omega
  obtain ⟨hplace, hkind, hindex⟩ :=
    Blueprint.relocationAt_spec RelocationKind.abs64.number hplaceLe
      (show i + 1 ≤ 67108864 by omega)
  obtain ⟨label, hrecord, _⟩ := h.symbol_object hsymbol
  have hvalue : (blueprint.symbolRecord { name, target := .data offset } label).value.toNat =
      rodataStart blueprint.text + offset := by
    have hsmall : rodataStart blueprint.text + offset < UInt64.size := by
      simp only [target, UInt64.size] at htarget ⊢
      omega
    exact UInt64.toNat_ofNat_of_lt' hsmall
  have hconstant := hready.readLE_abs64 hvalid
  rw [Blueprint.relocationRecord]
  refine .abs64 ?_ ?_
  · rw [hkind]
    decide
  · rw [resolveAbs64_eq (by rw [hindex, hrecord])]
    · rw [hplace, hvalue, hconstant]
      rfl
    · rw [hplace]
      omega
    · rw [hplace, hvalue, hconstant]
      exact htarget

/-- The relocation of a constant without a symbol. -/
theorem resolves_textRelative {pc offset : Nat} {functions : FunctionTable}
    {counts : RelocationCounts}
    (hvalid : (textRelative pc offset).Valid blueprint.text blueprint.rodata)
    (hready : (textRelative pc offset).Ready blueprint image) :
    Resolves blueprint.object blueprint.textRange image functions counts
      (blueprint.relocationRecord (.textRelative pc offset))
      { patches := (textRelative pc offset).patches blueprint.text, functions
        counts := { counts with relative := counts.relative + 1 } } := by
  have hend := (hvalid.wide pc rfl).end_le
  have hsize := hready.size_eq
  have htarget : rodataStart blueprint.text + offset < 2 ^ 32 := hvalid.target_lt
  have hstart := rodataStart_eq h.aligned
  have hplaceLe : textOffset + slotSize * pc ≤ 67108864 := by
    obtain ⟨⟩ := h.placed
    omega
  obtain ⟨hplace, hkind, _⟩ :=
    Blueprint.relocationAt_spec RelocationKind.relative.number hplaceLe
      (show 0 ≤ 67108864 by decide)
  obtain ⟨hlow, hhigh⟩ := hready.readLE_textRelative hvalid
  rw [Blueprint.relocationRecord]
  refine .relativeInText ?_ ?_ ?_
  · rw [hkind]
    decide
  · rw [hplace, TextRange.contains, Blueprint.textRange, Bool.and_eq_true, decide_eq_true_eq,
      decide_eq_true_eq]
    simp only [slotSize] at hend ⊢
    omega
  · rw [hplace]
    have hpos : 0 < rodataStart blueprint.text + offset := by
      obtain ⟨⟩ := h.placed
      omega
    exact resolveRelativeInText_eq (by omega) hpos htarget hlow hhigh

/-- The relocation of an address in the constants. -/
theorem resolves_dataRelative {place offset : Nat} {functions : FunctionTable}
    {counts : RelocationCounts}
    (hvalid : (dataRelative place offset).Valid blueprint.text blueprint.rodata)
    (hready : (dataRelative place offset).Ready blueprint image) :
    Resolves blueprint.object blueprint.textRange image functions counts
      (blueprint.relocationRecord (.dataRelative place offset))
      { patches := (dataRelative place offset).patches blueprint.text, functions
        counts := { counts with relative := counts.relative + 1 } } := by
  have hwindow := hvalid.window place rfl
  have hsize := hready.size_eq
  have htarget : rodataStart blueprint.text + offset < 2 ^ 32 := hvalid.target_lt
  have hstart := rodataStart_eq h.aligned
  have hoffset : blueprint.rodataOffset = rodataStart blueprint.text := rfl
  have hplaceLe : rodataStart blueprint.text + place ≤ 67108864 := by
    obtain ⟨⟩ := h.placed
    simp only [addressSize] at hwindow
    omega
  obtain ⟨hplace, hkind, _⟩ :=
    Blueprint.relocationAt_spec RelocationKind.relative.number hplaceLe
      (show 0 ≤ 67108864 by decide)
  rw [Blueprint.relocationRecord, hoffset]
  refine .relativeInData ?_ ?_ ?_
  · rw [hkind]
    decide
  · rw [hplace, TextRange.contains, Blueprint.textRange, Bool.and_eq_true, decide_eq_true_eq,
      decide_eq_true_eq]
    dsimp only
    omega
  · rw [hplace, Blueprint.Buildable.isSbfV2_object]
    exact resolveRelativeInData_eq (by omega) htarget
      (hready.readLE_dataRelative h.aligned hvalid)

/-- Applying the relocation of a link writes its address. -/
theorem exists_apply {plan : RelocationPlan} {before : Linker}
    (hplan : link.addition.Numbered blueprint.symbols plan)
    (hvalid : link.Valid blueprint.text blueprint.rodata)
    (hready : link.Ready blueprint before.image) :
    ∃ after, before.apply blueprint.object blueprint.textRange (blueprint.relocationRecord plan) =
        .ok after ∧
      after.image = (link.patches blueprint.text).foldl Patch.write before.image := by
  cases link with
  | abs64 pc name offset =>
    cases hplan with
    | plain hnone => cases hnone
    | named hsome hi =>
      obtain rfl := Option.some.inj hsome
      have happly := Linker.exists_apply_of_resolves (resolves_abs64 h hi hvalid hready)
      rw [addition]
      exact happly
  | textRelative pc offset =>
    cases hplan with
    | named hsome hi => cases hsome
    | plain hnone =>
      have happly := Linker.exists_apply_of_resolves (resolves_textRelative h hvalid hready)
      rw [addition]
      exact happly
  | dataRelative place offset =>
    cases hplan with
    | named hsome hi => cases hsome
    | plain hnone =>
      have happly := Linker.exists_apply_of_resolves (resolves_dataRelative h hvalid hready)
      rw [addition]
      exact happly

/-- Applying the relocations of links that are apart writes all addresses. -/
theorem exists_applyAll {links : List AddressLink} {plans : List RelocationPlan} (before : Linker)
    (hplans : List.Forall₂ (Addition.Numbered blueprint.symbols) (links.map addition) plans)
    (hvalid : ∀ link ∈ links, link.Valid blueprint.text blueprint.rodata)
    (hapart : links.Pairwise Apart)
    (hready : ∀ link ∈ links, link.Ready blueprint before.image) :
    ∃ after, before.applyAll blueprint.object blueprint.textRange
        (plans.map blueprint.relocationRecord) = .ok after ∧
      after.image = (links.flatMap (patches blueprint.text)).foldl Patch.write before.image := by
  induction links generalizing plans before with
  | nil =>
    cases hplans
    exact ⟨before, rfl, rfl⟩
  | cons link links ih =>
    rw [List.map_cons] at hplans
    obtain ⟨plan, rest, hplan, hrest, rfl⟩ := List.forall₂_cons_left_iff.1 hplans
    obtain ⟨hfirst, hothers⟩ := List.forall_mem_cons.1 hvalid
    obtain ⟨hreadyFirst, hreadyOthers⟩ := List.forall_mem_cons.1 hready
    obtain ⟨hapartFirst, hapartOthers⟩ := List.pairwise_cons.1 hapart
    obtain ⟨next, hnext, himage⟩ := exists_apply h hplan hfirst hreadyFirst
    -- What one link writes is at none of the places of the others.
    have hready' (other : AddressLink) (hother : other ∈ links) :
        other.Ready blueprint next.image := by
      have hwritten := agreeExcept_foldl_write (link.patches blueprint.text) before.image
      rw [← himage] at hwritten
      exact (hwritten.mono fun i hi =>
        (hapartFirst other hother).covered hfirst (hothers other hother) hi).trans
          (hreadyOthers other hother)
    obtain ⟨after, hafter, hall⟩ := ih next hrest hothers hapartOthers hready'
    refine ⟨after, ?_, ?_⟩
    · rw [List.map_cons, Linker.applyAll, List.foldlM_cons, hnext]
      exact hafter
    · rw [hall, himage, List.flatMap_cons, List.foldl_append]

end AddressLink

-- ════════════════════════════════════════════════════════════════════════
-- The linked image
-- ════════════════════════════════════════════════════════════════════════

/-- The image of a bare text and constants with linked addresses. -/
def linkedImage (text rodata : ByteArray) (links : List AddressLink) (plain : Program) :
    ByteArray :=
  (links.flatMap (AddressLink.patches text)).foldl Patch.write (placedImage plain.image rodata)

/-- The image of a file with linked addresses is linked. -/
theorem Blueprint.Buildable.exists_links_of_addresses {blueprint : Blueprint}
    {links : List AddressLink} {plain : Program} (h : blueprint.Buildable)
    (hplain : Program.ofText blueprint.text = .ok plain)
    (hplans : List.Forall₂ (Addition.Numbered blueprint.symbols) (links.map AddressLink.addition)
      blueprint.relocations)
    (hvalid : ∀ link ∈ links, link.Valid blueprint.text blueprint.rodata)
    (hapart : links.Pairwise AddressLink.Apart) :
    ∃ resolved linked, blueprint.Links resolved linked ∧
      linked.image = linkedImage blueprint.text blueprint.rodata links plain := by
  obtain ⟨-, linkage, hlinkage, rfl⟩ := Program.exists_linkage_of_ofText hplain
  have hsources (link : AddressLink) (i : Nat)
      (hcovered : Covered (link.sources blueprint.text blueprint.sbfV2) i) :
      Covered (link.patches blueprint.text) i := AddressLink.covered_of_sources hcovered
  have hplaces := AddressLink.pairwise_covered hvalid hapart
  have himage := AddressLink.image_eq h.aligned hvalid hplans
  have hagree : AgreeExcept (LinkedPlaces blueprint.text links) blueprint.image
      (placedImage blueprint.text blueprint.rodata) := by
    rw [himage]
    exact (agreeExcept_foldl_write _ _).mono fun i hi => covered_flatMap hsources hi
  obtain ⟨resolved, hresolved, hsame, hkept⟩ :=
    exists_resolveCalls_of_linkedPlaces blueprint.textRange rfl h.bareSlotCount_le hvalid hagree
      hlinkage
  have hready (link : AddressLink) (hlink : link ∈ links) :
      link.Ready blueprint resolved.image := by
    have hisolated := foldl_write_isolated hsources hplaces hlink
      (placedImage blueprint.text blueprint.rodata)
    rw [← himage] at hisolated
    exact (hkept.mono fun i hi hcovered => hi ⟨link, hlink, hcovered⟩).trans hisolated
  obtain ⟨linked, hlinked, hwritten⟩ := AddressLink.exists_applyAll h
    { image := resolved.image
      functions := resolved.functions
      counts :=
        { calls := resolved.calls, abs64 := 0, relative := 0, functions := 0, syscalls := 0 } }
    hplans hvalid hapart hready
  refine ⟨resolved, linked, ⟨hresolved, hlinked⟩, ?_⟩
  -- All places that the image of the bare text differs in are written to.
  rw [hwritten, linkedImage]
  refine (agreeExcept_foldl_write_congr hsame _).eq fun i hi => ?_
  obtain ⟨⟨link, hlink, patch, hpatch, hwindow⟩, hnot⟩ := hi
  exact hnot ⟨patch, List.mem_flatMap.2 ⟨link, hlink, hpatch⟩, hwindow⟩

/-- The addresses have been linked: instructions load them, and the constants hold them. -/
structure AddressesLinked (text : ByteArray) (links : List AddressLink) (program : Program) :
    Prop where
  abs64 : ∀ pc name offset, .abs64 pc name offset ∈ links →
    program.LoadsAt pc (Slot.atOffset text (slotSize * pc)).dst
      (UInt64.ofNat (programBase.toNat +
        (rodataStart text + offset + (Slot.atOffset text (slotSize * pc)).uimm.toNat)))
  textRelative : ∀ pc offset, .textRelative pc offset ∈ links →
    program.LoadsAt pc (Slot.atOffset text (slotSize * pc)).dst
      (UInt64.ofNat (programBase.toNat + (rodataStart text + offset)))
  dataRelative : ∀ place offset, .dataRelative place offset ∈ links →
    Bytes.Holds program.image (rodataStart text + place)
      (Bytes.encodeLE (UInt64.ofNat (programBase.toNat + (rodataStart text + offset)))
        addressSize)

section Linked

variable {text rodata : ByteArray} {links : List AddressLink} {plain : Program}
variable (hvalid : ∀ link ∈ links, link.Valid text rodata)
variable (hapart : links.Pairwise AddressLink.Apart)
include hvalid hapart

/-- At the places of a link, the linked image holds what the link writes. -/
theorem linkedImage_isolated (plain : Program) {link : AddressLink} (hlink : link ∈ links) :
    AgreeExcept (fun i => ¬Covered (link.patches text) i) (linkedImage text rodata links plain)
      ((link.patches text).foldl Patch.write (placedImage plain.image rodata)) := by
  exact foldl_write_isolated (fun _ _ h => h) (AddressLink.pairwise_covered hvalid hapart) hlink _

variable (hplain : Program.ofText text = .ok plain)
include hplain

/-- The immediates of a linked instruction are the halves of its address. -/
theorem uimm_linkedImage {link : AddressLink} {pc : Nat} (hlink : link ∈ links)
    (hpc : pc ∈ link.pc?) :
    (Slot.atOffset (linkedImage text rodata links plain) (textOffset + slotSize * pc)).uimm.toNat =
        (link.address text).toNat % 2 ^ 32 ∧
      (Slot.atOffset (linkedImage text rodata links plain)
          (textOffset + slotSize * (pc + 1))).uimm.toNat =
        (link.address text).toNat / 2 ^ 32 := by
  have hend := ((hvalid link hlink).wide pc hpc).end_le
  have hsize := Program.size_image_of_ofText hplain
  have hinside : textOffset + slotSize * pc + 2 * slotSize ≤
      (placedImage plain.image rodata).size := by
    rw [size_placedImage, hsize]
    omega
  obtain ⟨hlow, hhigh⟩ := toNat_readLE_widePatches (link.address text) hinside
  have hisolated := linkedImage_isolated hvalid hapart plain hlink
  have hsame {start : Nat} (hwindow : ∀ i, InWindow start immediateSize i →
      Covered (link.patches text) i) :
      Bytes.readLE (linkedImage text rodata links plain) start immediateSize =
        Bytes.readLE ((widePatches (textOffset + slotSize * pc) (link.address text)).foldl
          Patch.write (placedImage plain.image rodata)) start immediateSize := by
    rw [hisolated.readLE_eq fun i hi => not_not_intro (hwindow i hi),
      AddressLink.patches_of_mem_pc? hpc]
  have hlow' := hsame fun i hi => AddressLink.covered_patches_iff.2 (.inl ⟨pc, hpc, .inl hi⟩)
  have hhigh' := hsame fun i hi => AddressLink.covered_patches_iff.2 (.inl ⟨pc, hpc, .inr hi⟩)
  have hplace : textOffset + slotSize * pc + secondImmediateOffset =
      textOffset + slotSize * (pc + 1) + immediateOffset := by
    rw [secondImmediateOffset, Nat.mul_add, Nat.mul_one, Nat.add_assoc, Nat.add_assoc,
      Nat.add_assoc]
  rw [hplace] at hhigh hhigh'
  rw [← hlow'] at hlow
  rw [← hhigh'] at hhigh
  simp only [immediateOffset, immediateSize] at hlow hhigh
  have hlt := (link.address text).toNat_lt
  rw [Slot.uimm_atOffset, Slot.uimm_atOffset, UInt64.toNat_toUInt32, UInt64.toNat_toUInt32, hlow,
    hhigh]
  omega

/-- A linked instruction loads its address. -/
theorem loadsAt_linkedImage (program : Program) {link : AddressLink} {pc : Nat}
    (himage : program.image = linkedImage text rodata links plain)
    (htext : program.text = { start := textOffset, stop := textOffset + text.size })
    (hlink : link ∈ links) (hpc : pc ∈ link.pc?) :
    program.LoadsAt pc (Slot.atOffset text (slotSize * pc)).dst (link.address text) := by
  have hpair := (hvalid link hlink).wide pc hpc
  have hinside := hpair.inside
  have hslots : program.slotCount = text.size / slotSize := by
    rw [Program.slotCount, htext, TextRange.slotCount, TextRange.size, Nat.add_sub_cancel_left]
  have hslot (slot : Nat) (hslot : slot < text.size / slotSize) :
      program.slot? slot = some
        (Slot.atOffset (linkedImage text rodata links plain) (textOffset + slotSize * slot)) := by
    rw [Program.slot?, hslots, if_pos hslot, himage, htext, TextRange.slotOffset]
  obtain ⟨hlow, hhigh⟩ := uimm_linkedImage hvalid hapart hplain hlink hpc
  -- Linking leaves the first half of the slot as it is in the text.
  have hhalf : Bytes.readLE (linkedImage text rodata links plain) (textOffset + slotSize * pc)
      immediateOffset = Bytes.readLE text (slotSize * pc) immediateOffset := by
    have hagree : AgreeExcept (LinkedPlaces text links) (linkedImage text rodata links plain)
        (placedImage plain.image rodata) :=
      (agreeExcept_foldl_write _ _).mono fun i hi => covered_flatMap (fun _ _ h => h) hi
    rw [(readLE_of_linkedPlaces hvalid hagree (Program.size_image_of_ofText hplain)
      (by omega)).1, Program.readLE_image_of_ofText hplain]
  have hsame := Slot.atOffset_of_readLE_eq hhalf
  have hloads := Program.loadsAt_of_wide (hslot pc (by omega)) (hslot (pc + 1) hinside) (by
    rw [hsame]
    exact hpair.first)
  rw [wideImmediate_eq hlow hhigh] at hloads
  rw [hsame] at hloads
  exact hloads

/-- Linked constants hold their address. -/
theorem holds_linkedImage {place offset : Nat} (hlink : .dataRelative place offset ∈ links) :
    Bytes.Holds (linkedImage text rodata links plain) (rodataStart text + place)
      (Bytes.encodeLE ((AddressLink.dataRelative place offset).address text) addressSize) := by
  have hwindow := (hvalid _ hlink).window place rfl
  obtain ⟨⟨-, haligned⟩, -⟩ := Program.exists_linkage_of_ofText hplain
  have hstart := rodataStart_eq haligned
  have hsize := Program.size_image_of_ofText hplain
  have hinside : rodataStart text + place + addressSize ≤
      (placedImage plain.image rodata).size := by
    rw [size_placedImage, hsize, hstart]
    omega
  have hheld := Bytes.holds_writeLE ((AddressLink.dataRelative place offset).address text) hinside
  have hwritten : ((AddressLink.dataRelative place offset).patches text).foldl Patch.write
        (placedImage plain.image rodata) =
      Bytes.writeLE (placedImage plain.image rodata) (rodataStart text + place)
        ((AddressLink.dataRelative place offset).address text) addressSize := by
    rw [AddressLink.patches, List.foldl_cons, List.foldl_nil, Patch.write]
  have hisolated := linkedImage_isolated hvalid hapart plain hlink
  rw [hwritten] at hisolated
  refine hheld.of_agree hisolated fun i hi => not_not_intro ?_
  rw [Bytes.size_encodeLE] at hi
  exact AddressLink.covered_patches_iff.2 (.inr ⟨place, rfl, hi⟩)

end Linked

-- ════════════════════════════════════════════════════════════════════════
-- Loading
-- ════════════════════════════════════════════════════════════════════════

variable {text rodata : ByteArray} {entryPc : Nat} {links : List AddressLink} {plain : Program}

/-- A name that always stands at the same offset belongs to one symbol. -/
theorem Blueprint.agree_of_offsets
    (hnames : ∀ name pc offset pc' offset', .abs64 pc name offset ∈ links →
      .abs64 pc' name offset' ∈ links → offset = offset') :
    ∀ addition ∈ links.map AddressLink.addition, ∀ s, addition.symbol? = some s →
      ∀ other ∈ links.map AddressLink.addition, ∀ t, other.symbol? = some t →
        Addition.Agree s t := by
  intro addition haddition s hs other hother t ht hname
  obtain ⟨link, hlink, rfl⟩ := List.mem_map.1 haddition
  obtain ⟨link', hlink', rfl⟩ := List.mem_map.1 hother
  cases link with
  | textRelative => cases hs
  | dataRelative => cases hs
  | abs64 pc name offset =>
    cases link' with
    | textRelative => cases ht
    | dataRelative => cases ht
    | abs64 pc' name' offset' =>
      obtain rfl := Option.some.inj hs
      obtain rfl := Option.some.inj ht
      dsimp only at hname
      subst hname
      rw [hnames _ _ _ _ _ hlink hlink']

/-- A file with linked addresses is loaded, with the image that has the addresses in their places. -/
theorem Blueprint.exists_load_of_addresses (sbfV2 : Bool)
    (hplain : Program.ofText text = .ok plain) (hentry : entryPc < text.size / slotSize)
    (hvalid : ∀ link ∈ links, link.Valid text rodata)
    (hapart : links.Pairwise AddressLink.Apart)
    (hnames : ∀ name pc offset pc' offset', .abs64 pc name offset ∈ links →
      .abs64 pc' name offset' ∈ links → offset = offset')
    (hsize : (ofAddresses text rodata entryPc sbfV2 links).build.size ≤ maxFileSize) :
    Object.ofFile (ofAddresses text rodata entryPc sbfV2 links).build =
        .ok (ofAddresses text rodata entryPc sbfV2 links).object ∧
      ∃ functions counts, load (ofAddresses text rodata entryPc sbfV2 links).build =
        .ok
          { program :=
              { image := linkedImage text rodata links plain
                text := { start := textOffset, stop := textOffset + text.size }
                entryPc
                functions
                sbfV2 }
            counts } := by
  obtain ⟨⟨hnonempty, haligned⟩, -⟩ := Program.exists_linkage_of_ofText hplain
  obtain ⟨hparts, hplans⟩ :=
    foldl_add_ofParts (agree_of_offsets hnames) text rodata entryPc sbfV2
  rw [← foldl_eq_foldl_add withAddress_eq_add, ← ofAddresses] at hparts hplans
  generalize ofAddresses text rodata entryPc sbfV2 links = blueprint at *
  obtain ⟨rfl, rfl, rfl, rfl, hsegments⟩ := hparts
  have hbuild : blueprint.Buildable := ⟨hsegments, hnonempty, haligned, hsize⟩
  have hentry' : slotSize * blueprint.entryPc < blueprint.text.size := by
    simp only [slotSize] at hentry ⊢
    omega
  obtain ⟨resolved, linked, hlinks, himage⟩ :=
    hbuild.exists_links_of_addresses hplain hplans hvalid hapart
  rw [← himage]
  exact ⟨hbuild.ofFile_build, _, _, hbuild.load_build hentry' hlinks⟩

/-- A file with linked addresses is loaded. The instructions load the addresses and the constants
hold them, and the image does not depend on the version of the format. -/
theorem load_ofAddresses (hplain : Program.ofText text = .ok plain)
    (hentry : entryPc < text.size / slotSize)
    (hvalid : ∀ link ∈ links, link.Valid text rodata)
    (hapart : links.Pairwise AddressLink.Apart)
    (hnames : ∀ name pc offset pc' offset', .abs64 pc name offset ∈ links →
      .abs64 pc' name offset' ∈ links → offset = offset') :
    ∃ image, ∀ sbfV2,
      (Blueprint.ofAddresses text rodata entryPc sbfV2 links).build.size ≤ maxFileSize →
      ∃ loaded, load (Blueprint.ofAddresses text rodata entryPc sbfV2 links).build = .ok loaded ∧
        loaded.program.image = image ∧ AddressesLinked text links loaded.program := by
  refine ⟨linkedImage text rodata links plain, fun sbfV2 hsize => ?_⟩
  obtain ⟨-, functions, counts, hload⟩ :=
    Blueprint.exists_load_of_addresses sbfV2 hplain hentry hvalid hapart hnames hsize
  have hloads (link : AddressLink) (hlink : link ∈ links) (pc : Nat) (hpc : pc ∈ link.pc?) :=
    loadsAt_linkedImage hvalid hapart hplain
      { image := linkedImage text rodata links plain
        text := { start := textOffset, stop := textOffset + text.size }
        entryPc
        functions
        sbfV2 } rfl rfl hlink hpc
  exact ⟨_, hload, rfl,
    { abs64 := fun pc name offset hlink => hloads _ hlink pc rfl
      textRelative := fun pc offset hlink => hloads _ hlink pc rfl
      dataRelative := fun place offset hlink => holds_linkedImage hvalid hapart hplain hlink }⟩

/-- Two instructions that load constants, one of them with four added to its constant, a relative
call and the end of the program. -/
def addressText : ByteArray :=
  encodeText
    [.new 0x18 1 0 0 0, .new 0 0 0 0 0, .new 0x18 2 0 0 4, .new 0 0 0 0 7, .new 0x85 0 0 0 0,
     .new 0x95 0 0 0 0]

def addressLinks : List AddressLink :=
  [.textRelative 0 8, .dataRelative 8 0, .abs64 2 "table" 16]

theorem exists_ofText_addressText : ∃ plain, Program.ofText addressText = .ok plain :=
  Program.exists_ofText (by decide +kernel) (by decide +kernel) (by decide +kernel)
    (by decide +kernel)

theorem addressLinks_valid : ∀ link ∈ addressLinks, link.Valid addressText (Bytes.zeros 24) := by
  decide +kernel

theorem addressLinks_agree : ∀ name pc offset pc' offset', .abs64 pc name offset ∈ addressLinks →
    .abs64 pc' name offset' ∈ addressLinks → offset = offset' := by
  grind [addressLinks]

theorem size_addressLinks_le (sbfV2 : Bool) :
    (Blueprint.ofAddresses addressText (Bytes.zeros 24) 0 sbfV2 addressLinks).build.size ≤
      maxFileSize := by
  rw [Blueprint.size_build rfl]
  cases sbfV2 <;> decide +kernel

/-- One link of each kind, in a text with a relative call: both versions of the file are loaded,
with the same image. -/
theorem load_addressLinks :
    ∃ plain, Program.ofText addressText = .ok plain ∧
      ∃ image, ∀ sbfV2, ∃ loaded,
        load (Blueprint.ofAddresses addressText (Bytes.zeros 24) 0 sbfV2 addressLinks).build =
            .ok loaded ∧
          loaded.program.image = image ∧
          AddressesLinked addressText addressLinks loaded.program := by
  obtain ⟨plain, hplain⟩ := exists_ofText_addressText
  obtain ⟨image, hload⟩ :=
    load_ofAddresses hplain (show 0 < addressText.size / slotSize by decide +kernel)
      addressLinks_valid (by decide) addressLinks_agree
  exact ⟨plain, hplain, image, fun sbfV2 => hload sbfV2 (size_addressLinks_le sbfV2)⟩

end SbfMachine.Link
