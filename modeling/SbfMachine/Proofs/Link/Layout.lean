import SbfMachine.Proofs.Link.Blueprint.Image

/-!
# The layout of loaded programs

Where the parts of a program lie, in its image and in memory, and how that follows from the file
that it was loaded from. Nothing that is loaded later can move them: resolving calls and applying
relocations change bytes of the image, but not its size.

## Main definitions

- `Program.Layout` — the places of the text, the entry and the functions
- `Program.LayoutFrom` — how they follow from a file

## Main statements

- `Link.size_image_le` — an image is no larger than the file
- `Program.layout_of_load`, `Program.layoutFrom_of_load` — loaded programs are laid out like this
- `Program.layouts` — so are all programs
-/

namespace SbfMachine

namespace Program

/-- The places of the text, the entry and the functions of a program. -/
structure Layout (program : Program) : Prop where
  nonempty : program.text.start < program.text.stop
  inside : program.text.stop ≤ program.image.size
  /-- The text consists of whole slots. -/
  aligned : program.text.size % slotSize = 0
  entry : program.entryPc < program.slotCount
  /-- Every function is entered under the hash of its slot, which is one of the text. -/
  functions : ∀ hash slot, (hash, slot) ∈ program.functions.toList →
    hash = CallHash.ofSlot slot ∧ slot < program.slotCount
  /-- The text ends inside the image in memory as well. -/
  mapped : program.textAddress.toNat + slotSize * program.slotCount ≤
    programBase.toNat + program.image.size

/-- How the layout of a program follows from the file that it was loaded from. -/
structure LayoutFrom (file : ByteArray) (program : Program) : Prop where
  /-- The entry is where the file header says, counted from the address of the text. -/
  entry : ∃ object, Elf.Object.ofFile file = .ok object ∧
    program.text.start = object.textSection.header.addr.toNat ∧
    object.header.entry.toNat =
      object.textSection.header.addr.toNat + slotSize * program.entryPc
  image_le : program.image.size ≤ file.size

end Program

namespace Link

open Elf

theorem foldl_max_stop_le {extents : List Extent} {start bound : Nat} (hstart : start ≤ bound)
    (hinside : ∀ extent ∈ extents, extent.stop ≤ bound) :
    extents.foldl (fun size extent => max size extent.stop) start ≤ bound := by
  induction extents generalizing start with
  | nil => exact hstart
  | cons first extents ih =>
    rw [List.foldl_cons]
    refine ih ?_ fun extent hextent => hinside extent (List.mem_cons_of_mem first hextent)
    exact Nat.max_le.2 ⟨hstart, hinside first List.mem_cons_self⟩

/-- The image of a file is no larger than the file. -/
theorem size_image_le {file image : ByteArray} {object : Object} {text : TextRange}
    (hobject : Object.ofFile file = .ok object) (h : copyImage object = .ok (image, text)) :
    image.size ≤ file.size := by
  obtain ⟨extents, _, hextents, rfl⟩ := copyImage_eq_ok h
  have hinside := mappedExtents_inside hextents
  rw [size_imageOf hinside, ← (Object.readFrom_of_ofFile hobject).file_eq]
  exact foldl_max_stop_le (Nat.zero_le _) fun extent hextent => (hinside extent hextent).2

/-- The text of an object begins at the address of its section. -/
theorem start_of_copyImage {object : Object} {image : ByteArray} {text : TextRange}
    (h : copyImage object = .ok (image, text)) :
    text.start = object.textSection.header.addr.toNat ∧
      programBase.toNat + text.start ≤ stackBase.toNat := by
  obtain ⟨extents, hrange, _, _⟩ := copyImage_eq_ok h
  obtain ⟨hstart, -⟩ := textRange_eq_ok hrange
  obtain ⟨_, haddress, hregion⟩ := checkPlacement_eq_ok_iff.1 (checkPlacement_of_textRange hrange)
  rw [← haddress] at hstart
  refine ⟨hstart, ?_⟩
  omega

end Link

/-- The entry of an object is the address of its text and so many slots. -/
theorem entry_of_entrySlot {object : Elf.Object} {text : TextRange} {entryPc : Nat}
    (h : entrySlot object text = .ok entryPc) :
    object.header.entry.toNat =
      object.textSection.header.addr.toNat + slotSize * entryPc := by
  unfold entrySlot at h
  dsimp only at h
  split at h
  · next hinside =>
    obtain rfl := Except.ok.inj h
    obtain ⟨hbase, haligned, _⟩ := hinside
    simp only [slotSize] at haligned ⊢
    omega
  · cases h

namespace Program

theorem functions_of_within {functions : FunctionTable} {count : Nat}
    (h : functions.Within count) (hash : UInt32) (slot : Nat)
    (hmem : (hash, slot) ∈ functions.toList) : hash = CallHash.ofSlot slot ∧ slot < count :=
  h hash slot (Std.HashMap.mem_toList_iff_getElem?_eq_some.1 hmem)

/-- A text that is well-formed and not empty is inside the image in memory, too, where addresses do
not wrap around. -/
theorem WellFormed.layout {program : Program} (h : program.WellFormed)
    (hregion : programBase.toNat + program.text.start ≤ stackBase.toNat) : program.Layout := by
  have hentry := h.entryPc_lt
  have haligned := h.aligned
  have hinside := h.stop_le_size
  have hnonempty : program.text.start < program.text.stop := by
    simp only [slotCount, TextRange.slotCount, TextRange.size, slotSize] at hentry
    omega
  refine ⟨hnonempty, hinside, haligned, hentry, functions_of_within h.functions_within, ?_⟩
  have haddress : program.textAddress.toNat = programBase.toNat + program.text.start := by
    have hstack : stackBase.toNat < UInt64.size := stackBase.toNat_lt
    rw [textAddress, UInt64.toNat_add, UInt64.toNat_ofNat', Nat.mod_eq_of_lt, Nat.mod_eq_of_lt]
    all_goals simp only [UInt64.size] at hstack; omega
  rw [haddress]
  simp only [slotCount, TextRange.slotCount, TextRange.size, slotSize] at haligned ⊢
  omega

theorem layout_of_ofText {text : ByteArray} {program : Program}
    (h : ofText text = .ok program) : program.Layout := by
  refine (wellFormed_of_ofText h).layout ?_
  rw [(start_of_ofText h).1]
  decide

theorem layout_of_load {file : ByteArray} {loaded : Loaded} (h : load file = .ok loaded) :
    loaded.program.Layout := by
  refine (wellFormed_of_load h).layout ?_
  obtain ⟨object, image, text, linkage, linked, entryPc, _, himage, _, _, _, hprogram⟩ :=
    exists_steps_of_load h
  rw [hprogram]
  exact (Link.start_of_copyImage himage).2

theorem layoutFrom_of_load {file : ByteArray} {loaded : Loaded} (h : load file = .ok loaded) :
    LayoutFrom file loaded.program := by
  obtain ⟨object, image, text, linkage, linked, entryPc, hobject, himage, hcalls, hrelocations,
    hentry, hprogram⟩ := exists_steps_of_load h
  obtain ⟨_, _, haligned⟩ := Link.text_inside_image hobject himage
  obtain ⟨hresolved, hfunctions⟩ := Linkage.resolveCalls_keeps hcalls
  obtain ⟨hlinked, _⟩ := Link.Linker.applyAll_keeps haligned hfunctions hrelocations
  rw [hprogram]
  refine ⟨⟨object, hobject, (Link.start_of_copyImage himage).1, entry_of_entrySlot hentry⟩, ?_⟩
  simp only [hlinked, hresolved]
  exact Link.size_image_le hobject himage

/-- The layout of all programs: those made of a bare text, which begin with their first slot, and
those loaded from a file. -/
theorem layouts :
    (∀ text program, ofText text = .ok program → program.Layout ∧ program.entryPc = 0) ∧
      ∀ file loaded, load file = .ok loaded →
        loaded.program.Layout ∧ LayoutFrom file loaded.program :=
  ⟨fun _ _ h => ⟨layout_of_ofText h, (start_of_ofText h).2⟩,
    fun _ _ h => ⟨layout_of_load h, layoutFrom_of_load h⟩⟩

/-- A call of the slot behind it, and the end of the program. -/
def callText : ByteArray :=
  encodeText [.new 0x85 0 0 0 0, .new 0x95 0 0 0 0]

/-- The slot that is called becomes a function. -/
theorem slot?_callText {linkage : Linkage}
    (h : (Linkage.ofImage callText).resolveCalls { start := 0, stop := callText.size } =
      .ok linkage) : linkage.functions.slot? (CallHash.ofSlot 1) = some 1 :=
  (Linkage.slot?_resolveCalls_iff h).2
    ⟨rfl, { pc := 0, target := 1 }, by decide +kernel, rfl⟩

/-- The text and the file of it are both accepted, and each program has the function. -/
theorem layouts_of_callText :
    (∃ program, ofText callText = .ok program ∧
        (CallHash.ofSlot 1, 1) ∈ program.functions.toList ∧ program.Layout) ∧
      ∃ loaded, load (Link.Blueprint.ofText callText).build = .ok loaded ∧
        (CallHash.ofSlot 1, 1) ∈ loaded.program.functions.toList ∧
        loaded.program.Layout ∧
        LayoutFrom (Link.Blueprint.ofText callText).build loaded.program := by
  obtain ⟨program, hprogram⟩ : ∃ program, ofText callText = .ok program :=
    exists_ofText (by decide +kernel) (by decide +kernel) (by decide +kernel) (by decide +kernel)
  obtain ⟨⟨hnonempty, haligned⟩, linkage, hlinkage, rfl⟩ := exists_linkage_of_ofText hprogram
  have hsize : (Link.Blueprint.ofText callText).build.size ≤ Elf.maxFileSize := by
    rw [Link.Blueprint.size_build rfl]
    decide +kernel
  obtain ⟨loaded, hload, _, _, _, hfunctions⟩ :=
    Link.Blueprint.exists_load_ofText hnonempty haligned hsize hlinkage
  have hslot := slot?_callText hlinkage
  refine ⟨⟨_, hprogram, ?_, (layouts.1 _ _ hprogram).1⟩, loaded, hload, ?_, layouts.2 _ _ hload⟩
  · exact Std.HashMap.mem_toList_iff_getElem?_eq_some.2 hslot
  · exact Std.HashMap.mem_toList_iff_getElem?_eq_some.2 ((hfunctions _).trans hslot)

end Program

end SbfMachine
