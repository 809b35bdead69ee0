import SbfMachine.Proofs.Program.Calls

/-!
# Calls of the functions of a text

A program that is made from a bare text differs from the text in its relative calls only, and there
in nothing but the immediate: the distance has become the hash of the target. The function table
takes each hash back to its target. As a hash that would name two targets is refused, no call can
end up at the target of another one, whatever the text is like. A function can also be called by its
address, and the addresses of two slots are different.

## Main definitions

- `callsOf` — the relative calls of a bare text

## Main statements

- `RelativeCall.atOffset_foldl_write` — writing all calls changes each of them once
- `Program.slot?_of_callDistance?` — what has become of a relative call
- `Program.slot?_of_not_call` — the other slots stay as they are
-/

namespace SbfMachine

-- ════════════════════════════════════════════════════════════════════════
-- Writing all calls
-- ════════════════════════════════════════════════════════════════════════

namespace RelativeCall

variable {text : TextRange} {image : ByteArray} {calls : List RelativeCall}

/-- A slot without a call stays as it is. -/
theorem atOffset_foldl_write_of_ne {slot : Nat} (h : ∀ call ∈ calls, call.pc ≠ slot) :
    Slot.atOffset (calls.foldl (write text) image) (text.slotOffset slot) =
      Slot.atOffset image (text.slotOffset slot) := by
  induction calls generalizing image with
  | nil => rfl
  | cons first calls ih =>
    obtain ⟨hfirst, hrest⟩ := List.forall_mem_cons.1 h
    rw [List.foldl_cons, ih hrest, write, TextRange.atOffset_writeImmediate_of_ne _ hfirst.symm]

/-- A call that is the only one in its slot has its immediate replaced by the hash of its target. -/
theorem atOffset_foldl_write {call : RelativeCall} (hmem : call ∈ calls)
    (honly : ∀ other ∈ calls, other.pc = call.pc → other = call)
    (hinside : text.slotOffset call.pc + slotSize ≤ image.size) :
    Slot.atOffset (calls.foldl (write text) image) (text.slotOffset call.pc) =
      (Slot.atOffset image (text.slotOffset call.pc)).withImm
        (CallHash.ofSlot call.target.toNat) := by
  induction calls generalizing image with
  | nil => exact absurd hmem List.not_mem_nil
  | cons first calls ih =>
    obtain ⟨hfirst, hrest⟩ := List.forall_mem_cons.1 honly
    have hwritten : Slot.atOffset (call.write text image) (text.slotOffset call.pc) =
        (Slot.atOffset image (text.slotOffset call.pc)).withImm
          (CallHash.ofSlot call.target.toNat) := by
      rw [write, TextRange.atOffset_writeImmediate _ hinside, if_pos rfl]
    rw [List.foldl_cons]
    by_cases hlater : call ∈ calls
    · rw [ih hlater hrest (by rwa [write, TextRange.size_writeImmediate])]
      by_cases hsame : first.pc = call.pc
      · rw [hfirst hsame, hwritten, Slot.withImm_withImm]
      · rw [write, TextRange.atOffset_writeImmediate_of_ne _ (Ne.symm hsame)]
    · obtain rfl := (List.mem_cons.1 hmem).resolve_right hlater
      rw [atOffset_foldl_write_of_ne, hwritten]
      intro other hother hsame
      exact hlater (hrest other hother hsame ▸ hother)

end RelativeCall

-- ════════════════════════════════════════════════════════════════════════
-- Programs of bare texts
-- ════════════════════════════════════════════════════════════════════════

/-- The relative calls of a bare text. -/
def callsOf (bytes : ByteArray) : List RelativeCall :=
  relativeCalls { start := 0, stop := bytes.size } bytes 0 (bytes.size / slotSize)

/-- A text has a relative call wherever a slot holds one. -/
theorem mem_callsOf_iff {bytes : ByteArray} {call : RelativeCall} :
    call ∈ callsOf bytes ↔
      ∃ slot distance, Slot.read? bytes call.pc = some slot ∧
        slot.callDistance? = some distance ∧ call.target = call.pc + 1 + distance := by
  rw [callsOf, mem_relativeCalls_iff, RelativeCall.at?_eq_some_iff]
  simp only [Slot.read?_eq_some_iff, slotsOf, TextRange.slotOffset, Nat.zero_add, Nat.zero_le,
    true_and]
  constructor
  · rintro ⟨hpc, distance, hdistance, hcall⟩
    exact ⟨_, distance, ⟨hpc, rfl⟩, hdistance, (congrArg RelativeCall.target hcall).symm⟩
  · rintro ⟨_, distance, ⟨hpc, rfl⟩, hdistance, htarget⟩
    exact ⟨hpc, distance, hdistance, by rw [← htarget]⟩

/-- There is one call in a slot. -/
theorem eq_of_mem_callsOf {bytes : ByteArray} {call other : RelativeCall}
    (hcall : call ∈ callsOf bytes) (hother : other ∈ callsOf bytes) (hpc : other.pc = call.pc) :
    other = call := by
  have hat := (mem_relativeCalls_iff.1 hcall).2
  have hat' := (mem_relativeCalls_iff.1 hother).2
  rw [hpc] at hat'
  exact Option.some.inj (hat'.symm.trans hat)

namespace Program

section BareText

variable {bytes : ByteArray} {program : Program} (hprogram : ofText bytes = .ok program)
include hprogram

theorem text_of_ofText : program.text = { start := 0, stop := bytes.size } := by
  obtain ⟨-, linkage, -, rfl⟩ := exists_linkage_of_ofText hprogram
  rfl

theorem slotCount_of_ofText : program.slotCount = bytes.size / slotSize := by
  rw [slotCount, text_of_ofText hprogram]
  rfl

/-- The image of a bare text names the target of each relative call by its hash. -/
theorem image_of_ofText :
    program.image =
      (callsOf bytes).foldl (RelativeCall.write { start := 0, stop := bytes.size }) bytes := by
  obtain ⟨-, linkage, hlinkage, rfl⟩ := exists_linkage_of_ofText hprogram
  exact (Linkage.resolved_of_resolveCalls hlinkage).image

/-- The image is the text. -/
theorem textBytes_of_ofText : program.textBytes = program.image := by
  rw [textBytes, text_of_ofText hprogram, ← size_image_of_ofText hprogram]
  exact ByteArray.extract_zero_size

/-- The functions of a bare text are the targets of its relative calls. -/
theorem slot?_functions_of_ofText {hash : UInt32} {slot : Nat} :
    program.functions.slot? hash = some slot ↔
      hash = CallHash.ofSlot slot ∧ ∃ call ∈ callsOf bytes, call.target = (slot : Int) := by
  obtain ⟨-, linkage, hlinkage, rfl⟩ := exists_linkage_of_ofText hprogram
  exact Linkage.slot?_resolveCalls_iff hlinkage

theorem inside_of_mem_callsOf {call : RelativeCall} (h : call ∈ callsOf bytes) :
    0 ≤ call.target ∧ call.target < program.slotCount := by
  obtain ⟨-, linkage, hlinkage, rfl⟩ := exists_linkage_of_ofText hprogram
  exact (Linkage.resolved_of_resolveCalls hlinkage).inside call h

variable {pc : Nat} {slot : Slot} (hread : Slot.read? bytes pc = some slot)
include hread

/-- The slots of the program are those of the image in which the calls have been written. -/
theorem slot?_of_read? :
    program.slot? pc = some (Slot.atOffset
      ((callsOf bytes).foldl (RelativeCall.write { start := 0, stop := bytes.size }) bytes)
      (TextRange.slotOffset { start := 0, stop := bytes.size } pc)) := by
  have hinside : pc < bytes.size / slotSize := Slot.lt_slotsOf_of_read? hread
  rw [slot?, slotCount_of_ofText hprogram, if_pos hinside, image_of_ofText hprogram,
    text_of_ofText hprogram]

/-- A slot that is no relative call is as it was in the text. -/
theorem slot?_of_not_call (hnone : slot.callDistance? = none) : program.slot? pc = some slot := by
  obtain ⟨-, hslot⟩ := Slot.read?_eq_some_iff.1 hread
  rw [slot?_of_read? hprogram hread, RelativeCall.atOffset_foldl_write_of_ne,
    TextRange.slotOffset, Nat.zero_add, hslot]
  rintro call hcall rfl
  obtain ⟨other, distance, hother, hdistance, -⟩ := mem_callsOf_iff.1 hcall
  obtain rfl := Option.some.inj (hread.symm.trans hother)
  rw [hnone] at hdistance
  cases hdistance

/-- A relative call names its target by a hash that the function table takes back to the target. -/
theorem slot?_of_callDistance? {distance : Int} (hcall : slot.callDistance? = some distance) :
    ∃ target : Nat, (target : Int) = pc + 1 + distance ∧ target < program.slotCount ∧
      program.slot? pc = some (slot.withImm (CallHash.ofSlot target)) ∧
      program.functions.slot? (CallHash.ofSlot target) = some target := by
  have hmem : (⟨pc, pc + 1 + distance⟩ : RelativeCall) ∈ callsOf bytes :=
    mem_callsOf_iff.2 ⟨slot, distance, hread, hcall, rfl⟩
  obtain ⟨hnonneg, hlt⟩ := inside_of_mem_callsOf hprogram hmem
  obtain ⟨target, htarget⟩ := Int.eq_ofNat_of_zero_le hnonneg
  dsimp only at htarget hlt
  refine ⟨target, htarget.symm, by omega, ?_, ?_⟩
  · obtain ⟨-, hslot⟩ := Slot.read?_eq_some_iff.1 hread
    have hbytes : slotSize * pc + slotSize ≤ bytes.size := Slot.lt_of_read?_eq_some hread
    rw [slot?_of_read? hprogram hread, RelativeCall.atOffset_foldl_write hmem, htarget,
      Int.toNat_natCast, TextRange.slotOffset, Nat.zero_add, hslot]
    · exact fun other hother => eq_of_mem_callsOf hmem hother
    · rwa [TextRange.slotOffset, Nat.zero_add]
  · exact (slot?_functions_of_ofText hprogram).2 ⟨rfl, _, hmem, htarget⟩

end BareText

end Program

end SbfMachine
