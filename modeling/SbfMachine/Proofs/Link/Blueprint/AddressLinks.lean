import SbfMachine.Proofs.Link.Blueprint.Additions
import SbfMachine.Proofs.Link.Patches
import SbfMachine.Proofs.Program.Constants

/-!
# Files with relocated addresses

A file can be written from a text, constants and relocations of addresses: of the constants that
two-slot instructions load, with a symbol or without one, and of addresses among the constants. The
file holds each address in a form of its own, counted from the start of the image. The places of
different links do not overlap, and no call is among them. So resolving the calls of the text and
linking the addresses do not disturb one another.

## Main definitions

- `AddressLink` — an address and where it is linked
- `AddressLink.sources`, `AddressLink.patches` — what is written into the file and into the image
- `Blueprint.ofAddresses` — the file with linked addresses
- `LinkedPlaces` — the places of the image that are written to

## Main statements

- `AddressLink.Apart.covered` — links that are apart are at different places
- `AddressLink.image_eq` — the image of the file before anything is linked
- `exists_resolveCalls_of_linkedPlaces` — its calls are resolved like those of the bare text
-/

namespace SbfMachine.Link

open Elf
open Blueprint (textOffset)
open Bytes (AgreeExcept InWindow)

/-- An address that is linked. -/
inductive AddressLink
  /-- The constant loaded at slot `pc` is the address of the constant `name`, which stands at an
  offset of `.rodata`, plus what the instruction holds. -/
  | abs64 (pc : Nat) (name : String) (offset : Nat)
  /-- The constant loaded at slot `pc` is the address of an offset of `.rodata`. -/
  | textRelative (pc offset : Nat)
  /-- The eight bytes at offset `place` of `.rodata` are the address of another offset. -/
  | dataRelative (place offset : Nat)
  deriving DecidableEq

/-- Where the constants stand in a file with the given text. -/
def rodataStart (text : ByteArray) : Nat :=
  (Blueprint.ofText text).rodataOffset

theorem rodataStart_eq {text : ByteArray} (haligned : text.size % slotSize = 0) :
    rodataStart text = textOffset + text.size := by
  simp only [slotSize] at haligned
  rw [rodataStart, Blueprint.rodataOffset, Bytes.align8, Blueprint.ofText]
  dsimp only
  omega

/-- The slots of the text end before the constants start. -/
theorem slots_le_rodataStart (text : ByteArray) :
    textOffset + slotSize * (text.size / slotSize) ≤ rodataStart text := by
  simp only [rodataStart, Blueprint.rodataOffset, Bytes.align8, Blueprint.ofText, slotSize]
  omega

namespace AddressLink

/-- The slot of the instruction that is linked. -/
def pc? : AddressLink → Option Nat
  | .abs64 pc _ _ | .textRelative pc _ => some pc
  | .dataRelative .. => none

/-- The place in `.rodata` that is linked. -/
def place? : AddressLink → Option Nat
  | .abs64 .. | .textRelative .. => none
  | .dataRelative place _ => some place

/-- The address that is linked, counted from the start of the image. -/
def target (text : ByteArray) : AddressLink → Nat
  | .abs64 pc _ offset =>
    rodataStart text + offset + (Slot.atOffset text (slotSize * pc)).uimm.toNat
  | .textRelative _ offset | .dataRelative _ offset => rodataStart text + offset

/-- The address that is linked. -/
def address (text : ByteArray) (link : AddressLink) : UInt64 :=
  UInt64.ofNat (programBase.toNat + link.target text)

def addition : AddressLink → Addition
  | .abs64 pc name offset =>
    { symbol? := some { name, target := .data offset }, relocation := .abs64 pc }
  | .textRelative pc offset =>
    { symbol? := none, relocation := fun _ => .textRelative pc offset }
  | .dataRelative place offset =>
    { symbol? := none, relocation := fun _ => .dataRelative place offset }

/-- What is written into the file, apart from the relocation. -/
def sources (text : ByteArray) (sbfV2 : Bool) : AddressLink → List Patch
  | .abs64 .. => []
  | .textRelative pc offset =>
    widePatches (textOffset + slotSize * pc) (UInt64.ofNat (rodataStart text + offset))
  | .dataRelative place offset =>
    let value := UInt64.ofNat (rodataStart text + offset)
    if sbfV2 then [{ offset := rodataStart text + place, width := addressSize, value }]
    else
      [{ offset := rodataStart text + place + immediateOffset, width := immediateSize, value }]

/-- What is written into the image. -/
def patches (text : ByteArray) (link : AddressLink) : List Patch :=
  match link with
  | .abs64 pc _ _ | .textRelative pc _ =>
    widePatches (textOffset + slotSize * pc) (link.address text)
  | .dataRelative place _ =>
    [{ offset := rodataStart text + place, width := addressSize, value := link.address text }]

/-- The places of the link are there, and its address is small. -/
structure Valid (text rodata : ByteArray) (link : AddressLink) : Prop where
  wide : ∀ pc ∈ link.pc?, IsWidePair text pc
  window : ∀ place ∈ link.place?, place + addressSize ≤ rodata.size
  target_lt : link.target text < 2 ^ 32

instance (text rodata : ByteArray) (link : AddressLink) : Decidable (link.Valid text rodata) :=
  decidable_of_iff
    ((∀ pc ∈ link.pc?, IsWidePair text pc) ∧
      (∀ place ∈ link.place?, place + addressSize ≤ rodata.size) ∧ link.target text < 2 ^ 32)
    ⟨fun ⟨hwide, hwindow, htarget⟩ => ⟨hwide, hwindow, htarget⟩,
      fun ⟨hwide, hwindow, htarget⟩ => ⟨hwide, hwindow, htarget⟩⟩

/-- The links are those of different instructions and of places that do not overlap. -/
structure Apart (a b : AddressLink) : Prop where
  pc : ∀ pc ∈ a.pc?, pc ∉ b.pc?
  place : ∀ p ∈ a.place?, ∀ q ∈ b.place?, p + addressSize ≤ q ∨ q + addressSize ≤ p

instance (a b : AddressLink) : Decidable (a.Apart b) :=
  decidable_of_iff
    ((∀ pc ∈ a.pc?, pc ∉ b.pc?) ∧
      ∀ p ∈ a.place?, ∀ q ∈ b.place?, p + addressSize ≤ q ∨ q + addressSize ≤ p)
    ⟨fun ⟨hpc, hplace⟩ => ⟨hpc, hplace⟩, fun ⟨hpc, hplace⟩ => ⟨hpc, hplace⟩⟩

end AddressLink

namespace Blueprint

/-- Adds the relocation of an address. -/
def withAddress (blueprint : Blueprint) : AddressLink → Blueprint
  | .abs64 pc name offset => blueprint.withAbs64 pc name offset
  | .textRelative pc offset => blueprint.withTextRelative pc offset
  | .dataRelative place offset => blueprint.withDataRelative place offset

/-- The file with a text, constants and linked addresses. -/
def ofAddresses (text rodata : ByteArray) (entryPc : Nat) (sbfV2 : Bool)
    (links : List AddressLink) : Blueprint :=
  links.foldl withAddress (ofParts text rodata entryPc sbfV2)

theorem withAddress_eq_add (blueprint : Blueprint) (link : AddressLink) :
    blueprint.withAddress link = blueprint.add link.addition := by
  cases link <;> rfl

end Blueprint

namespace AddressLink

variable {text rodata : ByteArray} {link other : AddressLink} {i : Nat}

-- ════════════════════════════════════════════════════════════════════════
-- Places
-- ════════════════════════════════════════════════════════════════════════

/-- The places of a link: immediates of its two slots, or eight bytes of the constants. -/
theorem covered_patches_iff :
    Covered (link.patches text) i ↔
      (∃ pc ∈ link.pc?,
        InWindow (textOffset + slotSize * pc + immediateOffset) immediateSize i ∨
          InWindow (textOffset + slotSize * pc + secondImmediateOffset) immediateSize i) ∨
      ∃ place ∈ link.place?, InWindow (rodataStart text + place) addressSize i := by
  cases link <;>
    simp [patches, pc?, place?, covered_widePatches_iff, covered_cons_iff, not_covered_nil]

theorem patches_of_mem_pc? {pc : Nat} (hpc : pc ∈ link.pc?) :
    link.patches text = widePatches (textOffset + slotSize * pc) (link.address text) := by
  cases link with
  | abs64 => obtain rfl := Option.some.inj hpc; rfl
  | textRelative => obtain rfl := Option.some.inj hpc; rfl
  | dataRelative => cases hpc

/-- What is written into the file lies at these places. -/
theorem covered_of_sources {sbfV2 : Bool} (h : Covered (link.sources text sbfV2) i) :
    Covered (link.patches text) i := by
  rw [covered_patches_iff]
  cases link with
  | abs64 => exact absurd h not_covered_nil
  | textRelative pc offset =>
    rw [sources, covered_widePatches_iff] at h
    exact .inl ⟨pc, rfl, h⟩
  | dataRelative place offset =>
    refine .inr ⟨place, rfl, ?_⟩
    cases sbfV2 with
    | true => simpa [sources, covered_cons_iff, not_covered_nil] using h
    | false =>
      have hwindow : InWindow (rodataStart text + place + immediateOffset) immediateSize i := by
        simpa [sources, covered_cons_iff, not_covered_nil] using h
      simp only [InWindow, immediateOffset, immediateSize, addressSize] at hwindow ⊢
      omega

/-- In a slot of the text, a link covers the immediate only, and the slot is one of its two. -/
theorem Valid.slot_of_covered {slot : Nat} (hvalid : link.Valid text rodata)
    (hcovered : Covered (link.patches text) i)
    (hslot : slot < text.size / slotSize)
    (hi : InWindow (textOffset + slotSize * slot) slotSize i) :
    textOffset + slotSize * slot + immediateOffset ≤ i ∧
      ∃ pc, IsWidePair text pc ∧ (slot = pc ∨ slot = pc + 1) := by
  have hstart := slots_le_rodataStart text
  obtain ⟨pc, hpc, hwindow⟩ | ⟨place, -, hwindow⟩ := covered_patches_iff.1 hcovered
  · simp only [InWindow, slotSize, immediateOffset, secondImmediateOffset, immediateSize]
      at hi hwindow ⊢
    exact ⟨by omega, pc, hvalid.wide pc hpc, by omega⟩
  · simp only [InWindow, slotSize] at hstart hslot hi hwindow
    omega

end AddressLink

/-- Links that are apart cover different places. -/
theorem AddressLink.Apart.covered {text rodata : ByteArray} {a b : AddressLink} {i : Nat}
    (h : a.Apart b) (ha : a.Valid text rodata) (hb : b.Valid text rodata)
    (hcovered : Covered (a.patches text) i) : ¬Covered (b.patches text) i := by
  intro hother
  rw [covered_patches_iff] at hcovered hother
  have hstart := slots_le_rodataStart text
  simp only [InWindow, slotSize, immediateOffset, secondImmediateOffset, immediateSize,
    addressSize] at hcovered hother hstart
  obtain ⟨p, hp, hwindow⟩ | ⟨p, hp, hwindow⟩ := hcovered <;>
    obtain ⟨q, hq, hwindow'⟩ | ⟨q, hq, hwindow'⟩ := hother
  · have hne : p ≠ q := fun heq => h.pc p hp (heq ▸ hq)
    have hpq := (ha.wide p hp).ne_succ (hb.wide q hq)
    have hqp := (hb.wide q hq).ne_succ (ha.wide p hp)
    omega
  · have hinside := (ha.wide p hp).inside
    simp only [slotSize] at hinside
    omega
  · have hinside := (hb.wide q hq).inside
    simp only [slotSize] at hinside
    omega
  · have hplaces := h.place p hp q hq
    simp only [addressSize] at hplaces
    omega

theorem AddressLink.pairwise_covered {text rodata : ByteArray} {links : List AddressLink}
    (hvalid : ∀ link ∈ links, link.Valid text rodata) (hapart : links.Pairwise Apart) :
    links.Pairwise fun a b => ∀ i, Covered (a.patches text) i → ¬Covered (b.patches text) i :=
  hapart.imp_of_mem fun ha hb hab _ hi => hab.covered (hvalid _ ha) (hvalid _ hb) hi

-- ════════════════════════════════════════════════════════════════════════
-- The image before anything is linked
-- ════════════════════════════════════════════════════════════════════════

namespace AddressLink

variable {blueprint : Blueprint} {link : AddressLink}

/-- What one link writes into the text and the constants of the file. -/
theorem foldl_write_sources {symbols : List SymbolPlan} {plan : RelocationPlan}
    {text rodata : ByteArray} (haligned : blueprint.text.size % slotSize = 0)
    (htext : text.size = blueprint.text.size) (hvalid : link.Valid blueprint.text blueprint.rodata)
    (hplan : link.addition.Numbered symbols plan) :
    (link.sources blueprint.text blueprint.sbfV2).foldl Patch.write
        (placedImage text rodata) =
      placedImage (blueprint.textWithAddress text plan)
        (blueprint.rodataWithAddress rodata plan) := by
  have hstart : rodataStart blueprint.text = textOffset + text.size := by
    rw [rodataStart_eq haligned, htext]
  have haddress (offset : Nat) :
      UInt64.ofNat (rodataStart blueprint.text + offset) = blueprint.rodataAddress offset := rfl
  cases link with
  | abs64 pc name offset =>
    cases hplan with
    | plain hnone => cases hnone
    | named hsome hi => rfl
  | textRelative pc offset =>
    cases hplan with
    | named hsome hi => cases hsome
    | plain hnone =>
      have hend := (hvalid.wide pc rfl).end_le
      have hwrite (part : ByteArray) (hpart : part.size = blueprint.text.size) (field : Nat)
          (hfield : field + immediateSize ≤ 2 * slotSize) (value : UInt64) :
          Bytes.writeLE (placedImage part rodata)
              (textOffset + slotSize * pc + field) value immediateSize =
            placedImage (Bytes.writeLE part (slotSize * pc + field) value immediateSize)
              rodata := by
        have hplace : slotSize * pc + field + immediateSize ≤ part.size := by omega
        rw [Nat.add_assoc, writeLE_placedImage_text rodata value hplace]
      simp only [sources, widePatches, List.foldl_cons, List.foldl_nil, Patch.write, haddress]
      rw [hwrite text htext immediateOffset (by decide),
        hwrite _ (by rw [Bytes.size_writeLE, htext]) secondImmediateOffset (by decide)]
      rfl
  | dataRelative place offset =>
    cases hplan with
    | named hsome hi => cases hsome
    | plain hnone =>
      simp only [sources, addition, Blueprint.rodataWithAddress, Blueprint.textWithAddress,
        haddress]
      split
      · rw [List.foldl_cons, List.foldl_nil, Patch.write, hstart, writeLE_placedImage_rodata]
      · rw [List.foldl_cons, List.foldl_nil, Patch.write, hstart, Nat.add_assoc _ place,
          writeLE_placedImage_rodata]

theorem foldl_write_flatMap_sources {links : List AddressLink} {plans : List RelocationPlan}
    {text rodata : ByteArray} (haligned : blueprint.text.size % slotSize = 0)
    (htext : text.size = blueprint.text.size)
    (hvalid : ∀ link ∈ links, link.Valid blueprint.text blueprint.rodata)
    (hplans : List.Forall₂ (Addition.Numbered blueprint.symbols) (links.map addition) plans) :
    (links.flatMap (sources blueprint.text blueprint.sbfV2)).foldl Patch.write
        (placedImage text rodata) =
      placedImage (plans.foldl blueprint.textWithAddress text)
        (plans.foldl blueprint.rodataWithAddress rodata) := by
  induction links generalizing plans text rodata with
  | nil =>
    cases hplans
    rfl
  | cons link links ih =>
    rw [List.map_cons] at hplans
    obtain ⟨plan, rest, hplan, hrest, rfl⟩ := List.forall₂_cons_left_iff.1 hplans
    obtain ⟨hfirst, hothers⟩ := List.forall_mem_cons.1 hvalid
    rw [List.flatMap_cons, List.foldl_append, foldl_write_sources haligned htext hfirst hplan]
    exact ih (by rw [blueprint.size_textWithAddress, htext]) hothers hrest

/-- The image of the file is that of text and constants, with what the links write into it. -/
theorem image_eq {links : List AddressLink} (haligned : blueprint.text.size % slotSize = 0)
    (hvalid : ∀ link ∈ links, link.Valid blueprint.text blueprint.rodata)
    (hplans : List.Forall₂ (Addition.Numbered blueprint.symbols) (links.map addition)
      blueprint.relocations) :
    blueprint.image =
      (links.flatMap (sources blueprint.text blueprint.sbfV2)).foldl Patch.write
        (placedImage blueprint.text blueprint.rodata) := by
  rw [foldl_write_flatMap_sources haligned rfl hvalid hplans]
  rfl

end AddressLink

-- ════════════════════════════════════════════════════════════════════════
-- Resolving the calls
-- ════════════════════════════════════════════════════════════════════════

/-- The places of the image that the links write to. -/
def LinkedPlaces (text : ByteArray) (links : List AddressLink) (i : Nat) : Prop :=
  ∃ link ∈ links, Covered (link.patches text) i

/-- The patch that resolves a call. -/
def callPatch (range : TextRange) (call : RelativeCall) : Patch where
  offset := range.slotOffset call.pc + immediateOffset
  width := immediateSize
  value := (CallHash.ofSlot call.target.toNat).toUInt64

section Calls

variable {text rodata image : ByteArray} {links : List AddressLink} {slot : Nat}

/-- Links change the immediates of slots only, and those of no call. -/
theorem readLE_of_linkedPlaces {slots : ByteArray}
    (hvalid : ∀ link ∈ links, link.Valid text rodata)
    (hagree : AgreeExcept (LinkedPlaces text links) image
      (placedImage slots rodata))
    (hsize : slots.size = text.size) (hslot : slot < text.size / slotSize) :
    Bytes.readLE image (textOffset + slotSize * slot) immediateOffset =
        Bytes.readLE slots (slotSize * slot) immediateOffset ∧
      ((Slot.atOffset text (slotSize * slot)).opcode = Opcode.call.toByte →
        Bytes.readLE image (textOffset + slotSize * slot + immediateOffset) immediateSize =
          Bytes.readLE slots (slotSize * slot + immediateOffset) immediateSize) := by
  have htext := (holds_placedImage slots rodata).1
  constructor
  · rw [hagree.readLE_eq fun i hi => ?_, htext.readLE]
    · simp only [slotSize, immediateOffset] at hslot ⊢
      omega
    · rintro ⟨link, hlink, hcovered⟩
      obtain ⟨hge, hlt⟩ := hi
      obtain ⟨himmediate, _⟩ := (hvalid link hlink).slot_of_covered hcovered hslot
        ⟨hge, Nat.lt_trans hlt (Nat.add_lt_add_left (by decide) _)⟩
      omega
  · intro hcall
    rw [hagree.readLE_eq fun i hi => ?_, Nat.add_assoc, htext.readLE]
    · simp only [slotSize, immediateOffset, immediateSize] at hslot ⊢
      omega
    · rintro ⟨link, hlink, hcovered⟩
      obtain ⟨_, pc, hpair, hpc⟩ := (hvalid link hlink).slot_of_covered hcovered hslot (by
        simp only [InWindow, slotSize, immediateOffset, immediateSize] at hi ⊢
        omega)
      exact hpair.opcode_ne_call hpc hcall

/-- Links make no difference to which slots are calls, and where these go. -/
theorem callDistance?_of_linkedPlaces (hvalid : ∀ link ∈ links, link.Valid text rodata)
    (hagree : AgreeExcept (LinkedPlaces text links) image (placedImage text rodata))
    (hslot : slot < text.size / slotSize) :
    (Slot.atOffset image (textOffset + slotSize * slot)).callDistance? =
      (Slot.atOffset text (slotSize * slot)).callDistance? := by
  obtain ⟨hlow, himmediate⟩ := readLE_of_linkedPlaces hvalid hagree rfl hslot
  have hhalf := Slot.atOffset_of_readLE_eq hlow
  by_cases hcall : (Slot.atOffset text (slotSize * slot)).opcode = Opcode.call.toByte
  · have hhigh := himmediate hcall
    simp only [immediateOffset, immediateSize] at hlow hhigh
    rw [Slot.atOffset_eq image, Slot.atOffset_eq text, hlow, hhigh]
  · have hnone : (Slot.atOffset text (slotSize * slot)).callDistance? = none := by
      rw [Slot.callDistance?, if_neg fun h => hcall h.1]
    rw [hnone, hhalf, Slot.callDistance?, if_neg fun h => hcall h.1]

/-- Calls are resolved in the same way in an image. -/
theorem foldl_write_placedImage {calls : List RelativeCall} {range : TextRange}
    (hstart : range.start = textOffset)
    (hcalls : ∀ call ∈ calls, call.pc < text.size / slotSize) (rodata : ByteArray) :
    calls.foldl (RelativeCall.write range) (placedImage text rodata) =
      placedImage (calls.foldl (RelativeCall.write { start := 0, stop := text.size }) text)
        rodata := by
  rw [← Bytes.size_zeros textOffset] at hstart
  exact RelativeCall.foldl_write_surrounded (Bytes.zeros textOffset) rodata hstart rfl hcalls

/-- Resolving calls changes no place of a link. -/
theorem agreeExcept_of_calls {calls : List RelativeCall} {range : TextRange}
    (hstart : range.start = textOffset) (hvalid : ∀ link ∈ links, link.Valid text rodata)
    (hcalls : ∀ call ∈ calls, call.pc < text.size / slotSize ∧
      (Slot.atOffset text (slotSize * call.pc)).opcode = Opcode.call.toByte) :
    AgreeExcept (fun i => ¬LinkedPlaces text links i)
      (calls.foldl (RelativeCall.write range) image) image := by
  have hwritten := agreeExcept_foldl_write (calls.map (callPatch range)) image
  rw [List.foldl_map] at hwritten
  refine hwritten.mono fun i hcovered hplace => ?_
  obtain ⟨patch, hpatch, hwindow⟩ := hcovered
  obtain ⟨call, hcall, rfl⟩ := List.mem_map.1 hpatch
  obtain ⟨link, hlink, hlinked⟩ := hplace
  obtain ⟨hpc, hopcode⟩ := hcalls call hcall
  have hslot : InWindow (textOffset + slotSize * call.pc) slotSize i := by
    simp only [callPatch, TextRange.slotOffset, hstart, InWindow, slotSize, immediateOffset,
      immediateSize] at hwindow ⊢
    omega
  obtain ⟨_, pc, hpair, hsame⟩ := (hvalid link hlink).slot_of_covered hlinked hpc hslot
  exact hpair.opcode_ne_call hsame hopcode

/-- Resolving calls changes no place of a link, and changes other places as in the bare text. -/
theorem exists_resolveCalls_of_linkedPlaces {linkage : Linkage} (range : TextRange)
    (hrange : range = { start := textOffset, stop := textOffset + text.size })
    (hcount : TextRange.slotCount { start := 0, stop := text.size } ≤ UInt32.size)
    (hvalid : ∀ link ∈ links, link.Valid text rodata)
    (hagree : AgreeExcept (LinkedPlaces text links) image (placedImage text rodata))
    (hlinkage : (Linkage.ofImage text).resolveCalls { start := 0, stop := text.size } =
      .ok linkage) :
    ∃ resolved, (Linkage.ofImage image).resolveCalls range = .ok resolved ∧
      AgreeExcept (LinkedPlaces text links) resolved.image (placedImage linkage.image rodata) ∧
      AgreeExcept (fun i => ¬LinkedPlaces text links i) resolved.image image := by
  have hslots : range.slotCount = TextRange.slotCount { start := 0, stop := text.size } := by
    rw [hrange, TextRange.slotCount, TextRange.size, Nat.add_sub_cancel_left]
    rfl
  have hstart : range.start = textOffset := by rw [hrange]
  have hcalls : relativeCalls range image 0
        (TextRange.slotCount { start := 0, stop := text.size }) =
      relativeCalls { start := 0, stop := text.size } text 0
        (TextRange.slotCount { start := 0, stop := text.size }) := by
    refine relativeCalls_congr fun slot _ hslot => ?_
    rw [hrange]
    simp only [TextRange.slotOffset, Nat.zero_add] at hslot ⊢
    exact callDistance?_of_linkedPlaces hvalid hagree hslot
  obtain ⟨resolved, hresolved, himage, _⟩ :=
    Linkage.exists_resolveCalls hslots hcount hcalls hlinkage
  have hplain := (Linkage.resolved_of_resolveCalls hlinkage).image
  have hinside (call : RelativeCall) (hcall : call ∈ relativeCalls
      { start := 0, stop := text.size } text 0
      (TextRange.slotCount { start := 0, stop := text.size })) :
      call.pc < text.size / slotSize ∧
        (Slot.atOffset text (slotSize * call.pc)).opcode = Opcode.call.toByte := by
    obtain ⟨hpc, hopcode⟩ := opcode_of_mem_relativeCalls hcall
    simp only [TextRange.slotOffset, Nat.zero_add] at hpc hopcode
    exact ⟨hpc, hopcode⟩
  refine ⟨resolved, hresolved, ?_, ?_⟩
  · rw [himage, hplain]
    have hsame := Linkage.agreeExcept_foldl_write range hagree (relativeCalls
      { start := 0, stop := text.size } text 0
      (TextRange.slotCount { start := 0, stop := text.size }))
    rw [foldl_write_placedImage hstart fun call hcall => (hinside call hcall).1] at hsame
    exact hsame
  · rw [himage]
    exact agreeExcept_of_calls hstart hvalid hinside

end Calls

end SbfMachine.Link
