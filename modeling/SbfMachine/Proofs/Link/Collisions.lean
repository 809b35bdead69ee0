import SbfMachine.Proofs.Link.ImageContent
import SbfMachine.Proofs.Program.CallResolution

/-!
# Hashes of functions do not collide

Functions are entered under the hashes of their slots, and no two slots below 2^32 have the same
hash. As files are smaller than that, a function can always be entered, and the error for two
functions of one hash is never reported: the only step that can report it is the entering of a
function. Different functions of a program therefore have different entries.

## Main definitions

- `FunctionTable.Separates` — a table with an entry of its own for each of some slots
- `Link.IsCalled` — the slots that are called in a file
- `NoCollisions` — all of this together

## Main statements

- `collisionFree_load`, `collisionFree_ofText` — collisions are not reported
- `separates_of_load`, `separates_of_ofText` — the functions of a program
-/

namespace SbfMachine

variable {α β : Type}

-- ════════════════════════════════════════════════════════════════════════
-- Reading a file
-- ════════════════════════════════════════════════════════════════════════

namespace Elf

variable {file : ByteArray} {header : FileHeader}

theorem collisionFree_readRecord [Record α] (offset : Nat) :
    CollisionFree (readRecord α file offset) := by
  simp [readRecord]

theorem collisionFree_readTable [Record α] (offset size : Nat) :
    CollisionFree (readTable α file offset size) := by
  simp [readTable]

theorem collisionFree_readString (table : SectionHeader) (offset : UInt32) (limit : Nat) :
    CollisionFree (readString file table offset limit) := by
  rw [readString]
  dsimp only
  split
  · split <;> simp
  · simp

theorem collisionFree_check : CollisionFree header.check := by
  have hident : CollisionFree header.checkIdent := by
    simp [FileHeader.checkIdent]
  have hfields : CollisionFree header.checkFields := by
    simp [FileHeader.checkFields]
  have htables : CollisionFree header.checkTables := by
    simp [FileHeader.checkTables]
  exact hident.bind fun _ _ => hfields.bind fun _ _ => htables

theorem collisionFree_checkSegments (fileSize index : Nat) (previous : Option ProgramHeader)
    (headers : List ProgramHeader) :
    CollisionFree (checkSegments fileSize header index previous headers) := by
  induction headers generalizing index previous with
  | nil => simp [checkSegments]
  | cons first rest ih =>
    rw [checkSegments]
    split
    · split
      · simp
      · exact ih _ _
    · exact ih _ _

theorem collisionFree_checkSections (fileSize index dataEnd : Nat)
    (headers : List SectionHeader) :
    CollisionFree (checkSections fileSize header index dataEnd headers) := by
  induction headers generalizing index dataEnd with
  | nil => simp [checkSections]
  | cons first rest ih =>
    rw [checkSections]
    split
    · split
      · simp [sectionError]
      · exact ih _ _
    · exact ih _ _

theorem collisionFree_checkSectionTable (fileSize : Nat) (headers : List SectionHeader) :
    CollisionFree (checkSectionTable fileSize header headers) := by
  cases headers with
  | nil => simp [checkSectionTable, sectionError]
  | cons first rest =>
    rw [checkSectionTable]
    split
    · exact collisionFree_checkSections _ _ _ _
    · simp [sectionError]

theorem collisionFree_readSectionHeaders : CollisionFree (readSectionHeaders file header) := by
  refine (collisionFree_readTable _ _).bind fun headers _ => ?_
  exact (collisionFree_checkSectionTable _ _).bind fun _ _ => collisionFree_pure headers

theorem collisionFree_readProgramHeaders : CollisionFree (readProgramHeaders file header) := by
  refine (collisionFree_readTable _ _).bind fun headers _ => ?_
  exact (collisionFree_checkSegments _ _ _ _).bind fun _ _ => collisionFree_pure headers

theorem collisionFree_nameSections (names : SectionHeader) (named : Array Section)
    (headers : List SectionHeader) :
    CollisionFree (nameSections file names named headers) := by
  induction headers generalizing named with
  | nil => simp [nameSections]
  | cons first rest ih =>
    rw [nameSections]
    split
    · simp
    · split
      · simp
      · exact ih _

theorem collisionFree_readSections : CollisionFree (readSections file header) := by
  refine collisionFree_readSectionHeaders.bind fun headers _ => ?_
  split
  · simp
  · split
    · exact collisionFree_nameSections _ _ _
    · simp

variable {programHeaders : Array ProgramHeader} {sections : Array Section} {dynamic : DynamicTable}

theorem collisionFree_readDynamic : CollisionFree (readDynamic file programHeaders sections) := by
  rw [readDynamic]
  split
  · simp
  · split
    · simp
    · split
      · next error herror => exact (collisionFree_readTable _ _).error herror
      · simp

theorem collisionFree_fileOffset (address : UInt64) :
    CollisionFree (fileOffset programHeaders sections address) := by
  rw [fileOffset]
  dsimp only
  split
  · simp
  · split <;> simp

theorem collisionFree_readRelocations :
    CollisionFree (readRelocations file programHeaders sections dynamic) := by
  rw [readRelocations]
  dsimp only
  split
  · simp
  · split
    · simp
    · split
      · simp
      · refine (collisionFree_fileOffset _).bind fun offset _ => ?_
        exact (collisionFree_readTable offset _).bind fun table _ => collisionFree_pure _

theorem collisionFree_readSymbols : CollisionFree (readSymbols file sections dynamic) := by
  rw [readSymbols]
  dsimp only
  split
  · simp
  · split
    · simp
    · split
      · simp
      · split
        · simp
        · exact collisionFree_readTable _ _

theorem collisionFree_ofFile : CollisionFree (Object.ofFile file) := by
  rw [Object.ofFile]
  split
  · simp
  · refine (collisionFree_readRecord 0).bind fun header _ => ?_
    refine collisionFree_check.bind fun _ _ => ?_
    refine collisionFree_readProgramHeaders.bind fun programHeaders _ => ?_
    refine collisionFree_readSections.bind fun sections _ => ?_
    split
    · simp
    · refine collisionFree_readDynamic.bind fun dynamic _ => ?_
      refine collisionFree_readRelocations.bind fun relocations _ => ?_
      exact collisionFree_readSymbols.bind fun symbols _ => collisionFree_pure _

theorem Object.collisionFree_symbol (object : Object) (index : UInt32) :
    CollisionFree (object.symbol index) := by
  rw [symbol]
  split <;> simp

theorem Object.collisionFree_symbolName (object : Object) (symbol : Symbol) :
    CollisionFree (object.symbolName symbol) := by
  rw [symbolName]
  split
  · simp
  · exact collisionFree_readString _ _ _

end Elf

-- ════════════════════════════════════════════════════════════════════════
-- Linking a file
-- ════════════════════════════════════════════════════════════════════════

namespace FunctionTable

variable {functions : FunctionTable} {count : Nat}

/-- Entering one more of fewer than 2^32 slots meets no collision. -/
theorem Within.collisionFree_register {slot : Nat} (hwithin : functions.Within count)
    (hcount : count ≤ UInt32.size) (hslot : slot < count) :
    CollisionFree (functions.register slot) := by
  obtain ⟨registered, hregister⟩ := hwithin.exists_register hcount hslot
  rw [hregister]
  exact collisionFree_ok _

end FunctionTable

theorem Linkage.collisionFree_resolveCalls {text : TextRange} {linkage : Linkage}
    (hwithin : linkage.functions.Within text.slotCount) (hcount : text.slotCount ≤ UInt32.size) :
    CollisionFree (linkage.resolveCalls text) := by
  rcases resolveCalls_cases hwithin hcount with ⟨after, hafter⟩ | ⟨call, _, _, _, herror⟩
  · rw [hafter]
    exact collisionFree_ok after
  · rw [herror]
    simp

namespace Link

open Elf

variable {object : Object} {text : TextRange} {image : ByteArray} {functions : FunctionTable}
  {counts : RelocationCounts}

theorem collisionFree_checkPlacement (fileSize : Nat) (candidate : Elf.Section) :
    CollisionFree (checkPlacement fileSize candidate) := by
  simp [checkPlacement]

theorem collisionFree_mapSection (fileSize : Nat) (mapped : List Extent)
    (candidate : Elf.Section) : CollisionFree (mapSection fileSize mapped candidate) := by
  rw [mapSection]
  split
  · next error herror => exact (collisionFree_checkPlacement _ _).error herror
  · simp

theorem collisionFree_textRange : CollisionFree (textRange object) := by
  rw [textRange]
  split
  · next error herror => exact (collisionFree_checkPlacement _ _).error herror
  · simp

theorem collisionFree_copyImage : CollisionFree (copyImage object) := by
  refine collisionFree_textRange.bind fun text _ => ?_
  refine CollisionFree.bind ?_ fun extents _ => collisionFree_pure _
  refine collisionFree_foldlM (fun _ => True) trivial fun mapped candidate _ => ?_
  exact ⟨collisionFree_mapSection _ mapped candidate, fun _ _ => trivial⟩

theorem collisionFree_fieldAt (place field width : Nat) :
    CollisionFree (fieldAt image place field width) := by
  simp [fieldAt]

theorem collisionFree_wideImmediatePatches (place : Nat) (address : UInt64) :
    CollisionFree (wideImmediatePatches image place address) := by
  simp [wideImmediatePatches]

theorem collisionFree_fieldPatch (place field width : Nat) (value : UInt64) :
    CollisionFree (fieldPatch image place field width value) := by
  simp [fieldPatch]

theorem collisionFree_resolveAbs64 (relocation : Relocation) :
    CollisionFree (resolveAbs64 object image relocation) := by
  refine (object.collisionFree_symbol _).bind fun symbol _ => ?_
  refine (collisionFree_fieldAt _ _ _).bind fun addend _ => ?_
  exact collisionFree_wideImmediatePatches _ _

theorem collisionFree_resolveRelativeInText (place : Nat) :
    CollisionFree (resolveRelativeInText image place) := by
  refine (collisionFree_fieldAt _ _ _).bind fun low _ => ?_
  refine (collisionFree_fieldAt _ _ _).bind fun high _ => ?_
  dsimp only
  split
  · simp
  · exact collisionFree_wideImmediatePatches _ _

theorem collisionFree_resolveRelativeInData (sbfV2 : Bool) (place : Nat) :
    CollisionFree (resolveRelativeInData sbfV2 image place) := by
  rw [resolveRelativeInData]
  split
  all_goals
    refine CollisionFree.bind ?_ fun address _ => collisionFree_fieldPatch _ _ _ _
    exact collisionFree_map_iff.2 (collisionFree_fieldAt _ _ _)

section Tables

variable (haligned : text.size % slotSize = 0) (hcount : text.slotCount ≤ UInt32.size)
include haligned hcount

theorem collisionFree_resolveTarget (hwithin : functions.Within text.slotCount) (symbol : Symbol)
    (name : String) : CollisionFree (resolveTarget text functions counts symbol name) := by
  rw [resolveTarget]
  split
  · split
    · next hinside =>
      have hslot : (symbol.value.toNat - text.start) / slotSize < text.slotCount :=
        text.slot_lt_of_contains haligned hinside
      split
      · next error herror => exact (hwithin.collisionFree_register hcount hslot).error herror
      · simp
    · simp
  · simp

theorem collisionFree_resolve (hwithin : functions.Within text.slotCount)
    (relocation : Relocation) :
    CollisionFree (resolve object text image functions counts relocation) := by
  rw [resolve]
  dsimp only
  split
  · simp
  · simp
  · exact (collisionFree_resolveAbs64 _).bind fun patches _ => collisionFree_pure _
  · split
    · exact (collisionFree_resolveRelativeInText _).bind fun patches _ => collisionFree_pure _
    · exact (collisionFree_resolveRelativeInData _ _).bind fun patches _ => collisionFree_pure _
  · refine (object.collisionFree_symbol _).bind fun symbol _ => ?_
    refine (object.collisionFree_symbolName symbol).bind fun name _ => ?_
    refine (collisionFree_resolveTarget haligned hcount hwithin symbol name).bind fun target _ => ?_
    exact (collisionFree_fieldPatch _ _ _ _).bind fun patches _ => collisionFree_pure _

theorem Linker.collisionFree_applyAll {linker : Linker}
    (hwithin : linker.functions.Within text.slotCount) (relocations : List Relocation) :
    CollisionFree (linker.applyAll object text relocations) := by
  refine collisionFree_foldlM (fun before => before.functions.Within text.slotCount) hwithin
    fun before relocation hbefore => ⟨?_, fun after hafter => ?_⟩
  · rw [apply]
    split
    · next error herror => exact (collisionFree_resolve haligned hcount hbefore _).error herror
    · exact collisionFree_ok _
  · obtain ⟨resolution, hresolves, rfl⟩ := apply_eq_ok hafter
    exact hresolves.within haligned hbefore

end Tables

-- ════════════════════════════════════════════════════════════════════════
-- The slots that are called
-- ════════════════════════════════════════════════════════════════════════

/-- The relocation fills in a call of the function at slot `target`. -/
def FillsIn (object : Object) (text : TextRange) (relocation : Relocation) (target : Nat) : Prop :=
  RelocationKind.ofNumber? relocation.kind = some .call ∧
    ∃ symbol, object.symbol relocation.symbol = .ok symbol ∧ NamesFunction symbol ∧
      target = (symbol.value.toNat - text.start) / slotSize

/-- A call of an object goes to slot `target` of its text: by its distance in the file, or because a
relocation says so. -/
inductive IsCalled (object : Object) (text : TextRange) (target : Nat) : Prop
  | relative (call : RelativeCall)
      (hcall : call ∈ relativeCalls text object.file 0 text.slotCount)
      (htarget : call.target = (target : Int))
  | relocated (relocation : Relocation) (hmem : relocation ∈ object.relocations)
      (hfills : FillsIn object text relocation target)

/-- A relocation enters the function whose call it fills in, and no other. -/
theorem Resolves.slot?_iff {relocation : Relocation} {resolution : Resolution}
    (h : Resolves object text image functions counts relocation resolution) {hash : UInt32}
    {slot : Nat} :
    resolution.functions.slot? hash = some slot ↔
      functions.slot? hash = some slot ∨
        hash = CallHash.ofSlot slot ∧ FillsIn object text relocation slot := by
  have hother : RelocationKind.ofNumber? relocation.kind ≠ some .call →
      (functions.slot? hash = some slot ↔ functions.slot? hash = some slot ∨
        hash = CallHash.ofSlot slot ∧ FillsIn object text relocation slot) := by
    intro hkind
    refine ⟨.inl, fun hslot => hslot.resolve_right ?_⟩
    rintro ⟨_, hcall, _⟩
    exact hkind hcall
  cases h with
  | ignored hkind => exact hother (by simp [hkind])
  | abs64 hkind => exact hother (by simp [hkind])
  | relativeInText hkind => exact hother (by simp [hkind])
  | relativeInData hkind => exact hother (by simp [hkind])
  | @call symbol _ _ _ _ _ hkind hsymbol hname htarget hpatches =>
    obtain ⟨hfunction, _, hregister, _⟩ | ⟨hsyscall, _, rfl, _⟩ := resolveTarget_eq_ok htarget
    · rw [FunctionTable.slot?_register_iff hregister]
      refine or_congr_right (and_congr_right fun _ => ⟨?_, ?_⟩)
      · rintro rfl
        exact ⟨hkind, symbol, hsymbol, hfunction, rfl⟩
      · rintro ⟨_, named, hnamed, _, rfl⟩
        rw [Except.ok.inj (hsymbol.symm.trans hnamed)]
    · refine ⟨.inl, fun hslot => hslot.resolve_right ?_⟩
      rintro ⟨_, _, named, hnamed, hfunction, _⟩
      rw [Except.ok.inj (hsymbol.symm.trans hnamed)] at hsyscall
      exact hsyscall hfunction

/-- Relocations enter the functions whose calls they fill in, and no others. -/
theorem Linker.slot?_applyAll_iff {linker linked : Linker} {relocations : List Relocation}
    (h : linker.applyAll object text relocations = .ok linked) {hash : UInt32} {slot : Nat} :
    linked.functions.slot? hash = some slot ↔
      linker.functions.slot? hash = some slot ∨
        hash = CallHash.ofSlot slot ∧
          ∃ relocation ∈ relocations, FillsIn object text relocation slot := by
  induction relocations generalizing linker with
  | nil =>
    obtain rfl := Except.ok.inj h
    simp
  | cons relocation relocations ih =>
    rw [applyAll, List.foldlM_cons] at h
    obtain ⟨after, hfirst, hrest⟩ := exists_of_bind_eq_ok h
    obtain ⟨resolution, hresolves, rfl⟩ := apply_eq_ok hfirst
    rw [ih hrest, hresolves.slot?_iff, List.exists_mem_cons_iff, or_assoc, and_or_left]

end Link

-- ════════════════════════════════════════════════════════════════════════
-- Programs
-- ════════════════════════════════════════════════════════════════════════

/-- The table knows the slots that are called and no others, and it has an entry of its own for each
of them. -/
structure FunctionTable.Separates (functions : FunctionTable) (called : Nat → Prop) : Prop where
  slot?_iff : ∀ hash slot, functions.slot? hash = some slot ↔
    hash = CallHash.ofSlot slot ∧ called slot
  distinct : ∀ first second, called first → called second → first ≠ second →
    CallHash.ofSlot first ≠ CallHash.ofSlot second

/-- Slots below 2^32 have entries of their own, as their hashes differ. -/
theorem FunctionTable.Within.separates {functions : FunctionTable} {count : Nat}
    {called : Nat → Prop} (hwithin : functions.Within count) (hcount : count ≤ UInt32.size)
    (hslots : ∀ hash slot, functions.slot? hash = some slot ↔
      hash = CallHash.ofSlot slot ∧ called slot) : functions.Separates called where
  slot?_iff := hslots
  distinct first second hfirst hsecond hne hhash := by
    have hbelow : ∀ slot, called slot → slot < UInt32.size := fun slot hslot =>
      Nat.lt_of_lt_of_le (hwithin _ slot ((hslots _ slot).2 ⟨rfl, hslot⟩)).2 hcount
    exact hne (CallHash.ofSlot_injective (hbelow first hfirst) (hbelow second hsecond) hhash)

section File

open Link

variable {file : ByteArray} {object : Elf.Object} {image : ByteArray} {text : TextRange}

/-- A text has far fewer than 2^32 slots, because the file that it is part of is not that large. -/
theorem slotCount_le_of_copyImage (hobject : Elf.Object.ofFile file = .ok object)
    (himage : copyImage object = .ok (image, text)) : text.slotCount ≤ UInt32.size := by
  obtain ⟨extents, hrange, _, _⟩ := copyImage_eq_ok himage
  have hfrom := Elf.Object.readFrom_of_ofFile hobject
  have hplaced := (checkPlacement_eq_ok_iff.1 (checkPlacement_of_textRange hrange)).1
  have hlimit := hfrom.fileSize
  obtain ⟨_, _, hsize, _⟩ := textRange_eq_ok hrange
  rw [hfrom.file_eq] at hplaced
  rw [TextRange.slotCount, hsize]
  simp only [Elf.maxFileSize, UInt32.size, slotSize] at hlimit ⊢
  omega

theorem collisionFree_load (file : ByteArray) : CollisionFree (load file) := by
  refine Elf.collisionFree_ofFile.bind fun object hobject => ?_
  refine collisionFree_copyImage.bind fun copied himage => ?_
  obtain ⟨image, text⟩ := copied
  obtain ⟨_, _, haligned⟩ := text_inside_image hobject himage
  have hcount := slotCount_le_of_copyImage hobject himage
  refine (Linkage.collisionFree_resolveCalls ?_ hcount).bind fun linkage hcalls => ?_
  · exact FunctionTable.empty_within _
  · obtain ⟨_, hwithin⟩ := Linkage.resolveCalls_keeps hcalls
    refine (Linker.collisionFree_applyAll haligned hcount hwithin _).bind fun linked _ => ?_
    refine CollisionFree.bind ?_ fun entryPc _ => collisionFree_pure _
    simp [entrySlot]

/-- The calls that name their targets by distance are those that stand in the file. -/
theorem relativeCalls_of_copyImage (hobject : Elf.Object.ofFile file = .ok object)
    (himage : copyImage object = .ok (image, text)) :
    relativeCalls text image 0 text.slotCount =
      relativeCalls text object.file 0 text.slotCount := by
  obtain ⟨extents, hrange, hextents, rfl⟩ := copyImage_eq_ok himage
  refine relativeCalls_congr fun slot _ hslot => ?_
  rw [atOffset_imageOf (mappedExtents_inside hextents)
    (text_mem_of_mappedExtents hobject hrange hextents) (by omega)]

theorem separates_of_load {loaded : Loaded} (h : load file = .ok loaded) :
    ∃ object, Elf.Object.ofFile file = .ok object ∧
      loaded.program.functions.Separates (IsCalled object loaded.program.text) := by
  have hwell := wellFormed_of_load h
  obtain ⟨object, image, text, linkage, linked, entryPc, hobject, himage, hcalls, hrelocations, _,
    hprogram⟩ := exists_steps_of_load h
  refine ⟨object, hobject, hwell.functions_within.separates ?_ fun hash slot => ?_⟩
  · rw [hprogram]
    exact slotCount_le_of_copyImage hobject himage
  · rw [hprogram]
    dsimp only
    rw [Linker.slot?_applyAll_iff hrelocations, Linkage.slot?_resolveCalls_iff hcalls,
      relativeCalls_of_copyImage hobject himage, ← and_or_left]
    refine and_congr_right fun _ => ⟨?_, ?_⟩
    · rintro (⟨call, hcall, htarget⟩ | ⟨relocation, hmem, hfills⟩)
      · exact .relative call hcall htarget
      · exact .relocated relocation hmem hfills
    · rintro (⟨call, hcall, htarget⟩ | ⟨relocation, hmem, hfills⟩)
      · exact .inl ⟨call, hcall, htarget⟩
      · exact .inr ⟨relocation, hmem, hfills⟩

end File

section BareText

variable {bytes : ByteArray} (hcount : bytes.size / slotSize < UInt32.size)
include hcount

theorem collisionFree_ofText : CollisionFree (Program.ofText bytes) := by
  by_cases hslots : HasSlots bytes
  · rcases ofText_cases hcount hslots with ⟨⟨program, hprogram⟩, _⟩ | ⟨pc, target, _, herror⟩
    · rw [hprogram]
      exact collisionFree_ok program
    · rw [herror]
      simp
  · rw [ofText_of_not_hasSlots hslots]
    simp

theorem separates_of_ofText {program : Program} (h : Program.ofText bytes = .ok program) :
    program.functions.Separates fun slot => ∃ pc, CallsSlot bytes pc slot := by
  refine (Program.wellFormed_of_ofText h).functions_within.separates ?_
    (Program.callsResolved_of_ofText h).functions
  rw [Program.slotCount_of_ofText h]
  exact Nat.le_of_lt hcount

end BareText

/-- Two functions never share a hash. -/
structure NoCollisions : Prop where
  injective : ∀ p q, p < UInt32.size → q < UInt32.size →
    CallHash.ofSlot p = CallHash.ofSlot q → p = q
  load : ∀ file, CollisionFree (load file)
  ofText : ∀ bytes : ByteArray, bytes.size / slotSize < UInt32.size →
    CollisionFree (Program.ofText bytes)
  functions_load : ∀ file loaded, SbfMachine.load file = .ok loaded →
    ∃ object, Elf.Object.ofFile file = .ok object ∧
      loaded.program.functions.Separates (Link.IsCalled object loaded.program.text)
  functions_ofText : ∀ (bytes : ByteArray) program, bytes.size / slotSize < UInt32.size →
    Program.ofText bytes = .ok program →
      program.functions.Separates fun slot => ∃ pc, CallsSlot bytes pc slot

/-- The hash of slots has no collisions below 2^32, and files and texts that are smaller than that
cannot show one. -/
theorem noCollisions : NoCollisions where
  injective _ _ := CallHash.ofSlot_injective
  load := collisionFree_load
  ofText _ := collisionFree_ofText
  functions_load _ _ := separates_of_load
  functions_ofText _ _ hcount hprogram := separates_of_ofText hcount hprogram

end SbfMachine
