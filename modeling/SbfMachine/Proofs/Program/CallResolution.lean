import SbfMachine.Proofs.Program.LocalCalls
import SbfMachine.Proofs.Program.Rules

/-!
# What becomes of the calls of a text

A bare text becomes a program iff it consists of whole slots and each of its relative calls goes to
one of them; otherwise the first call that does not is reported. In the program, the immediate of
each relative call is the hash of its target, all other bytes are those of the text, and the
function table takes each of these hashes back to its target and knows no other. All of this is said
about the text as it was: what has been written into calls already does not matter for the calls
behind them.

## Main definitions

- `CallsSlot` — the relative calls of a text
- `FirstOutside` — the call that is reported
- `Program.CallsResolved` — what becomes of a text
- `CallResolution` — when it does, and what happens if it does not

## Main statements

- `ofText_eq_error` — texts that are refused because of a call
- `callResolution` — texts of fewer than 2^32 slots
-/

namespace SbfMachine

/-- Slot `pc` of a text is a call that names slot `target` by its distance: the source field is
zero, and the immediate is not the placeholder. -/
def CallsSlot (bytes : ByteArray) (pc : Nat) (target : Int) : Prop :=
  ∃ slot, Slot.read? bytes pc = some slot ∧ slot.opcode = Opcode.call.toByte ∧ slot.src.val = 0 ∧
    slot.imm.toInt ≠ -1 ∧ target = pc + 1 + slot.imm.toInt

/-- There is a slot with this number. -/
def IsSlotOf (bytes : ByteArray) (target : Int) : Prop :=
  0 ≤ target ∧ target < (bytes.size / slotSize : Nat)

/-- The call in slot `pc` does not go to a slot of the text, but those before it do. -/
structure FirstOutside (bytes : ByteArray) (pc : Nat) (target : Int) : Prop where
  call : CallsSlot bytes pc target
  outside : ¬IsSlotOf bytes target
  first : ∀ earlier other, earlier < pc → CallsSlot bytes earlier other → IsSlotOf bytes other

/-- The program of a text whose calls have been resolved. -/
structure Program.CallsResolved (bytes : ByteArray) (program : Program) : Prop where
  size : program.textBytes.size = bytes.size
  /-- A call is the same but for its immediate, which is the hash of its target. -/
  call : ∀ pc slot target, Slot.read? bytes pc = some slot → CallsSlot bytes pc target →
    Slot.read? program.textBytes pc = some (slot.withImm (CallHash.ofSlot target.toNat))
  /-- Nothing has been written but the immediates of calls. -/
  rest : ∀ i, (∀ pc target, CallsSlot bytes pc target →
      ¬(slotSize * pc + immediateOffset ≤ i ∧ i < slotSize * pc + slotSize)) →
    Bytes.byteAt program.textBytes i = Bytes.byteAt bytes i
  /-- The functions are the targets of the calls, each under its hash. -/
  functions : ∀ hash slot, program.functions.slot? hash = some slot ↔
    hash = CallHash.ofSlot slot ∧ ∃ pc, CallsSlot bytes pc slot

/-- Which texts are programs, and what becomes of them. -/
structure CallResolution (bytes : ByteArray) : Prop where
  program_iff : (∃ program, Program.ofText bytes = .ok program) ↔
    HasSlots bytes ∧ ∀ pc target, CallsSlot bytes pc target → IsSlotOf bytes target
  size_error : ¬HasSlots bytes → Program.ofText bytes = .error (.invalidTextSize bytes.size)
  call_error : HasSlots bytes → (∃ pc target, CallsSlot bytes pc target ∧ ¬IsSlotOf bytes target) →
    ∃ pc target, FirstOutside bytes pc target ∧
      Program.ofText bytes = .error (.callOutOfBounds pc target)
  resolved : ∀ program, Program.ofText bytes = .ok program → program.CallsResolved bytes

variable {bytes : ByteArray} {program : Program} {pc : Nat} {target : Int}

-- ════════════════════════════════════════════════════════════════════════
-- Calls of a text
-- ════════════════════════════════════════════════════════════════════════

theorem Slot.callDistance?_eq_some_iff {slot : Slot} {distance : Int} :
    slot.callDistance? = some distance ↔
      slot.opcode = Opcode.call.toByte ∧ slot.src.val = 0 ∧ slot.imm.toInt ≠ -1 ∧
        slot.imm.toInt = distance := by
  rw [callDistance?, Option.ite_none_right_eq_some, Option.some.injEq]
  simp only [and_assoc]

theorem callsSlot_iff_mem : CallsSlot bytes pc target ↔ ⟨pc, target⟩ ∈ callsOf bytes := by
  rw [mem_callsOf_iff]
  constructor
  · rintro ⟨slot, hread, hcall, hsrc, himm, htarget⟩
    exact ⟨slot, _, hread, Slot.callDistance?_eq_some_iff.2 ⟨hcall, hsrc, himm, rfl⟩, htarget⟩
  · rintro ⟨slot, distance, hread, hdistance, htarget⟩
    obtain ⟨hcall, hsrc, himm, rfl⟩ := Slot.callDistance?_eq_some_iff.1 hdistance
    exact ⟨slot, hread, hcall, hsrc, himm, htarget⟩

-- ════════════════════════════════════════════════════════════════════════
-- Texts that are refused
-- ════════════════════════════════════════════════════════════════════════

theorem ofText_of_not_hasSlots (h : ¬HasSlots bytes) :
    Program.ofText bytes = .error (.invalidTextSize bytes.size) := by
  rw [Program.ofText, if_pos]
  rw [HasSlots] at h
  simp only [slotSize]
  omega

/-- A text of whole slots is a program, or its first call to the outside is reported. -/
theorem ofText_cases (hcount : bytes.size / slotSize < UInt32.size) (hslots : HasSlots bytes) :
    ((∃ program, Program.ofText bytes = .ok program) ∧
        ∀ pc target, CallsSlot bytes pc target → IsSlotOf bytes target) ∨
      ∃ pc target, FirstOutside bytes pc target ∧
        Program.ofText bytes = .error (.callOutOfBounds pc target) := by
  obtain ⟨hnonempty, haligned⟩ := hslots
  have hsize : ¬(bytes.size = 0 ∨ bytes.size % slotSize ≠ 0) := by
    simp only [slotSize]
    omega
  have hslotCount : TextRange.slotCount { start := 0, stop := bytes.size } ≤ UInt32.size :=
    Nat.le_of_lt hcount
  have hwithin : (Linkage.ofImage bytes).functions.Within
      (TextRange.slotCount { start := 0, stop := bytes.size }) := FunctionTable.empty_within _
  simp only [Program.ofText, if_neg hsize]
  rcases Linkage.resolveCalls_cases hwithin hslotCount with
    ⟨linkage, hresolve⟩ | ⟨call, hcall, houtside, hearlier, herror⟩
  · refine .inl ⟨⟨_, by rw [hresolve]⟩, fun pc target hcalls => ?_⟩
    exact (Linkage.resolved_of_resolveCalls hresolve).inside _ (callsSlot_iff_mem.1 hcalls)
  · refine .inr ⟨call.pc, call.target, ⟨callsSlot_iff_mem.2 hcall, houtside, ?_⟩, by rw [herror]⟩
    intro earlier other hlt hcalls
    exact hearlier _ (callsSlot_iff_mem.1 hcalls) hlt

-- ════════════════════════════════════════════════════════════════════════
-- Texts that become programs
-- ════════════════════════════════════════════════════════════════════════

namespace Program

variable (h : ofText bytes = .ok program)
include h

theorem read?_of_callsSlot {slot : Slot} (hread : Slot.read? bytes pc = some slot)
    (hcalls : CallsSlot bytes pc target) :
    Slot.read? program.textBytes pc = some (slot.withImm (CallHash.ofSlot target.toNat)) := by
  obtain ⟨other, distance, hother, hdistance, htarget⟩ :=
    mem_callsOf_iff.1 (callsSlot_iff_mem.1 hcalls)
  obtain rfl := Option.some.inj (hread.symm.trans hother)
  obtain ⟨number, hnumber, _, hslot, _⟩ := slot?_of_callDistance? h hread hdistance
  dsimp only at htarget
  rw [← slot?_eq_read? (wellFormed_of_ofText h), hslot, htarget, ← hnumber, Int.toNat_natCast]

/-- The bytes that no call has as its immediate stay as they are. -/
theorem byteAt_textBytes {i : Nat} (hplace : ∀ pc target, CallsSlot bytes pc target →
      ¬(slotSize * pc + immediateOffset ≤ i ∧ i < slotSize * pc + slotSize)) :
    Bytes.byteAt program.textBytes i = Bytes.byteAt bytes i := by
  rw [textBytes_of_ofText h, image_of_ofText h]
  refine (RelativeCall.agreeExcept_foldl_write _ (callsOf bytes) bytes).byteAt i ?_
  rintro ⟨call, hcall, hstart, hstop⟩
  refine hplace call.pc call.target (callsSlot_iff_mem.2 hcall) ?_
  simp only [TextRange.slotOffset, slotSize, immediateOffset, immediateSize] at hstart hstop ⊢
  omega

theorem callsResolved_of_ofText : program.CallsResolved bytes where
  size := by rw [textBytes_of_ofText h, size_image_of_ofText h]
  call pc slot target hread hcalls := read?_of_callsSlot h hread hcalls
  rest i hplace := byteAt_textBytes h hplace
  functions hash slot := by
    rw [slot?_functions_of_ofText h]
    refine and_congr_right fun _ => ⟨?_, ?_⟩
    · rintro ⟨call, hcall, htarget⟩
      exact ⟨call.pc, htarget ▸ callsSlot_iff_mem.2 hcall⟩
    · rintro ⟨pc, hcalls⟩
      exact ⟨_, callsSlot_iff_mem.1 hcalls, rfl⟩

end Program

/-- Calls that leave the text are the only reason to refuse a text of whole slots, and otherwise
each call carries the hash of its target. -/
theorem callResolution (hcount : bytes.size / slotSize < UInt32.size) : CallResolution bytes where
  program_iff := by
    constructor
    · rintro ⟨program, hprogram⟩
      have hslots : HasSlots bytes := (Program.exists_linkage_of_ofText hprogram).1
      rcases ofText_cases hcount hslots with ⟨_, hinside⟩ | ⟨pc, target, _, herror⟩
      · exact ⟨hslots, hinside⟩
      · rw [hprogram] at herror
        cases herror
    · rintro ⟨hslots, hinside⟩
      rcases ofText_cases hcount hslots with ⟨hprogram, _⟩ | ⟨pc, target, hfirst, _⟩
      · exact hprogram
      · exact absurd (hinside pc target hfirst.call) hfirst.outside
  size_error := ofText_of_not_hasSlots
  call_error hslots := by
    rintro ⟨pc, target, hcalls, houtside⟩
    rcases ofText_cases hcount hslots with ⟨_, hinside⟩ | hfirst
    · exact absurd (hinside pc target hcalls) houtside
    · exact hfirst
  resolved program hprogram := Program.callsResolved_of_ofText hprogram

/-- Two calls forward to slot 3 and one back to slot 2. -/
private def sharedTargets : ByteArray :=
  encodeText
    [.new 0x85 0 0 0 2, .new 0x85 0 0 0 1, .new 0x95 0 0 0 0, .new 0x85 0 0 0 0xFFFFFFFE,
      .new 0x85 0 0 0 0xFFFFFFFF, .new 0x95 0 0 0 0]

theorem callResolution_sharedTargets :
    sharedTargets.size / slotSize < UInt32.size ∧ CallResolution sharedTargets ∧
      ∃ program, Program.ofText sharedTargets = .ok program ∧
        program.CallsResolved sharedTargets := by
  have hcount : sharedTargets.size / slotSize < UInt32.size := by decide +kernel
  have hresolution := callResolution hcount
  obtain ⟨program, hprogram⟩ : ∃ program, Program.ofText sharedTargets = .ok program :=
    Program.exists_ofText (by decide) (by decide) (by decide) (by decide +kernel)
  exact ⟨hcount, hresolution, program, hprogram, hresolution.resolved program hprogram⟩

end SbfMachine
