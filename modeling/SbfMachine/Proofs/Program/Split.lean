import SbfMachine.Program.Verification

/-!
# The split of a text into instructions

The verification reads a text from its first slot on and steps over whole instructions. Where it
stops are the starts of instructions; a verified text consists of these and of the second slots of
its two-slot instructions, and nothing else.

## Main definitions

- `instructionStarts` — the slots at which instructions start
- `IsSecondSlot` — the slots that belong to the instruction before them
- `IsBoundary` — the starts, and the end of the text

## Main statements

- `checkSlot_of_verify` — every instruction of a verified text obeys the rules
- `start_or_second_of_verify` — every slot is a start or a second slot
- `boundary_after_of_verify`, `jumpTarget_of_verify` — going on and jumping lead to boundaries
-/

namespace SbfMachine

def slotsOf (text : ByteArray) : Nat :=
  text.size / slotSize

/-- The slots at which instructions start, from slot `pc` on. -/
def startsFrom (text : ByteArray) (pc : Nat) : List Nat :=
  match _h : Slot.read? text pc with
  | none => []
  | some slot => pc :: startsFrom text (pc + slot.length)
termination_by text.size - pc
decreasing_by exact Slot.size_sub_lt_of_read?_eq_some ‹_›

/-- The slots at which the instructions of a text start. -/
def instructionStarts (text : ByteArray) : List Nat :=
  startsFrom text 0

/-- The slot belongs to the two-slot instruction that starts in the slot before it. -/
def IsSecondSlot (text : ByteArray) (pc : Nat) : Prop :=
  ∃ start ∈ instructionStarts text, ∃ slot, Slot.read? text start = some slot ∧
    Opcode.ofByte? slot.opcode = some .wide ∧ pc = start + 1

/-- An instruction starts here, or the text ends here. -/
def IsBoundary (text : ByteArray) (pc : Nat) : Prop :=
  pc ∈ instructionStarts text ∨ pc = slotsOf text

-- ════════════════════════════════════════════════════════════════════════
-- Reading slots
-- ════════════════════════════════════════════════════════════════════════

namespace Slot

theorem read?_eq_none_iff {text : ByteArray} {pc : Nat} :
    read? text pc = none ↔ slotsOf text ≤ pc := by
  rw [read?, ite_eq_right_iff]
  simp only [reduceCtorEq, imp_false, slotSize, slotsOf]
  omega

theorem read?_eq_some_iff {text : ByteArray} {pc : Nat} {slot : Slot} :
    read? text pc = some slot ↔ pc < slotsOf text ∧ atOffset text (slotSize * pc) = slot := by
  rw [read?, Option.ite_none_right_eq_some, Option.some.injEq]
  refine and_congr_left fun _ => ?_
  simp only [slotSize, slotsOf]
  omega

theorem exists_read?_iff {text : ByteArray} {pc : Nat} :
    (∃ slot, read? text pc = some slot) ↔ pc < slotsOf text := by
  rw [← Option.isSome_iff_exists, ← Option.ne_none_iff_isSome, Ne, read?_eq_none_iff]
  exact Nat.not_le

theorem lt_slotsOf_of_read? {text : ByteArray} {pc : Nat} {slot : Slot}
    (h : read? text pc = some slot) : pc < slotsOf text :=
  exists_read?_iff.1 ⟨slot, h⟩

theorem length_of_wide {slot : Slot} (h : Opcode.ofByte? slot.opcode = some .wide) :
    slot.length = 2 := by
  rw [length, h]
  rfl

theorem length_of_not_wide {slot : Slot} (h : Opcode.ofByte? slot.opcode ≠ some .wide) :
    slot.length = 1 := by
  unfold length
  split
  · next opcode decoded =>
    cases opcode with
    | wide => exact absurd decoded h
    | _ => rfl
  · rfl

end Slot

/-- No instruction has opcode byte zero. -/
theorem opcode_ne_zero_of_ofByte? {byte : UInt8} {opcode : Opcode}
    (h : Opcode.ofByte? byte = some opcode) : byte ≠ 0 := by
  rintro rfl
  cases h

-- ════════════════════════════════════════════════════════════════════════
-- The rules for one instruction
-- ════════════════════════════════════════════════════════════════════════

/-- A slot obeys the rules iff its registers are there, it holds an instruction, and the operands
of that instruction are as they should be. -/
theorem checkSlot_eq_ok_iff {text : ByteArray} {pc : Nat} {slot : Slot} :
    checkSlot text pc slot = .ok () ↔
      slot.src.val ≤ framePointerRegister ∧ ∃ opcode, Opcode.ofByte? slot.opcode = some opcode ∧
        checkOperands text pc slot opcode = .ok () ∧ slot.dst.val ≤ maxDestination opcode := by
  unfold checkSlot
  split
  · next hsrc => simp [Nat.not_le.2 hsrc]
  · next hsrc =>
    cases decoded : Opcode.ofByte? slot.opcode with
    | none => simp
    | some opcode =>
      cases operands : checkOperands text pc slot opcode with
      | error flaw => simp [operands]
      | ok =>
        simp only [Option.some.injEq, exists_eq_left', operands, true_and]
        split <;> simp <;> omega

/-- The second slot of a two-slot instruction is there and holds no instruction. -/
theorem exists_second_of_checkOperands {text : ByteArray} {pc : Nat} {slot : Slot}
    (h : checkOperands text pc slot .wide = .ok ()) :
    ∃ second, Slot.read? text (pc + 1) = some second ∧ second.opcode = 0 := by
  simp only [checkOperands] at h
  split at h
  · next second hread =>
    split at h
    · next hzero => exact ⟨second, hread, hzero⟩
    · cases h
  · cases h

/-- A jump that obeys the rules stays in the text and lands where the opcode byte is not zero. -/
theorem exists_landing_of_checkJump {text : ByteArray} {pc : Nat} {slot : Slot}
    (h : checkJump text pc slot = .ok ()) :
    0 ≤ jumpTarget pc slot ∧ jumpTarget pc slot < slotsOf text ∧
      ∃ landing, Slot.read? text (jumpTarget pc slot).toNat = some landing ∧
        landing.opcode ≠ 0 := by
  simp only [checkJump] at h
  split at h
  · cases h
  · next hinside =>
    have hlow : 0 ≤ jumpTarget pc slot := by omega
    have hhigh : jumpTarget pc slot < slotsOf text := by
      simp only [slotsOf]
      omega
    obtain ⟨landing, hread⟩ := Slot.exists_read?_iff.2
      (show (jumpTarget pc slot).toNat < slotsOf text by omega)
    rw [hread] at h
    refine ⟨hlow, hhigh, landing, hread, fun hzero => ?_⟩
    simp [hzero] at h

theorem checkJump_of_checkOperands {text : ByteArray} {pc : Nat} {slot : Slot} {opcode : Opcode}
    (hjump : opcode.isJump = true) (h : checkOperands text pc slot opcode = .ok ()) :
    checkJump text pc slot = .ok () := by
  cases opcode with
  | jump | branch => exact h
  | _ => cases hjump

theorem register_of_checkOperands {text : ByteArray} {pc : Nat} {slot : Slot}
    (h : checkOperands text pc slot .callRegister = .ok ()) :
    slot.uimm.toNat ≤ maxWritableRegister := by
  simp only [checkOperands] at h
  split at h
  · cases h
  · next hinside => exact Nat.le_of_not_lt hinside

/-- Every register that may be a destination is there. -/
theorem maxDestination_lt (opcode : Opcode) : maxDestination opcode < registerCount := by
  unfold maxDestination
  split <;> decide

-- ════════════════════════════════════════════════════════════════════════
-- The starts of instructions
-- ════════════════════════════════════════════════════════════════════════

theorem exists_read?_of_mem_startsFrom {text : ByteArray} {pc start : Nat}
    (h : start ∈ startsFrom text pc) : ∃ slot, Slot.read? text start = some slot := by
  induction pc using startsFrom.induct text with
  | case1 pc hread =>
    rw [startsFrom, hread] at h
    cases h
  | case2 pc slot hread ih =>
    rw [startsFrom, hread] at h
    rcases List.mem_cons.1 h with rfl | hrest
    · exact ⟨slot, hread⟩
    · exact ih hrest

/-- Behind an instruction another one starts, or there is no slot any more. -/
theorem next_of_mem_startsFrom {text : ByteArray} {pc start : Nat} {slot : Slot}
    (h : start ∈ startsFrom text pc) (hread : Slot.read? text start = some slot) :
    start + slot.length ∈ startsFrom text pc ∨ slotsOf text ≤ start + slot.length := by
  induction pc using startsFrom.induct text with
  | case1 pc hnone =>
    rw [startsFrom, hnone] at h
    cases h
  | case2 pc first hfirst ih =>
    rw [startsFrom, hfirst] at h ⊢
    rcases List.mem_cons.1 h with rfl | hrest
    · rw [hread] at hfirst
      obtain rfl := Option.some.inj hfirst
      rcases Nat.lt_or_ge (start + slot.length) (slotsOf text) with hlt | hge
      · obtain ⟨next, hnext⟩ := Slot.exists_read?_iff.2 hlt
        left
        apply List.mem_cons_of_mem
        rw [startsFrom, hnext]
        exact List.mem_cons_self
      · exact .inr hge
    · exact (ih hrest).imp_left (List.mem_cons_of_mem pc)

/-- Going over a text that passes, every instruction is checked. -/
theorem checkSlot_of_verifyFrom {text : ByteArray} {pc start : Nat} {slot : Slot}
    (hverify : verifyFrom text pc = .ok ()) (h : start ∈ startsFrom text pc)
    (hread : Slot.read? text start = some slot) : checkSlot text start slot = .ok () := by
  induction pc using startsFrom.induct text with
  | case1 pc hnone =>
    rw [startsFrom, hnone] at h
    cases h
  | case2 pc first hfirst ih =>
    rw [verifyFrom, hfirst] at hverify
    rw [startsFrom, hfirst] at h
    cases hcheck : checkSlot text pc first with
    | error flaw => simp [hcheck] at hverify
    | ok =>
      simp only [hcheck] at hverify
      rcases List.mem_cons.1 h with rfl | hrest
      · rw [hread] at hfirst
        obtain rfl := Option.some.inj hfirst
        exact hcheck
      · exact ih hverify hrest

/-- Going over a text that passes, every slot is the start of an instruction or follows the start
of a two-slot instruction. -/
theorem start_or_second_of_verifyFrom {text : ByteArray} {pc place : Nat}
    (hverify : verifyFrom text pc = .ok ()) (hpc : pc ≤ place) (hplace : place < slotsOf text) :
    place ∈ startsFrom text pc ∨ ∃ start ∈ startsFrom text pc, ∃ slot,
      Slot.read? text start = some slot ∧ Opcode.ofByte? slot.opcode = some .wide ∧
        place = start + 1 := by
  induction pc using startsFrom.induct text with
  | case1 pc hnone =>
    have := Slot.read?_eq_none_iff.1 hnone
    omega
  | case2 pc first hfirst ih =>
    rw [verifyFrom, hfirst] at hverify
    rw [startsFrom, hfirst]
    cases hcheck : checkSlot text pc first with
    | error flaw => simp [hcheck] at hverify
    | ok =>
      simp only [hcheck] at hverify ⊢
      by_cases hlater : pc + first.length ≤ place
      · rcases ih hverify hlater with hmem | ⟨start, hmem, hstart⟩
        · exact .inl (List.mem_cons_of_mem pc hmem)
        · exact .inr ⟨start, List.mem_cons_of_mem pc hmem, hstart⟩
      · rcases Nat.lt_or_eq_of_le hpc with hlt | rfl
        · -- The instruction covers `place` without starting there, so it has two slots.
          have hwide : Opcode.ofByte? first.opcode = some .wide := by
            apply Decidable.not_not.1
            intro hnarrow
            rw [Slot.length_of_not_wide hnarrow] at hlater
            exact hlater hlt
          rw [Slot.length_of_wide hwide] at hlater
          exact .inr ⟨pc, List.mem_cons_self, first, hfirst, hwide, by omega⟩
        · exact .inl List.mem_cons_self

-- ════════════════════════════════════════════════════════════════════════
-- Verified texts
-- ════════════════════════════════════════════════════════════════════════

section Verified

variable {text : ByteArray} (hverify : verify text = .ok ())
include hverify

/-- A text that passes is not empty, and its pass begins at the first slot. -/
theorem verifyFrom_zero_of_verify : 0 < slotsOf text ∧ verifyFrom text 0 = .ok () := by
  unfold verify at hverify
  split at hverify
  · cases hverify
  · next haligned =>
    split at hverify
    · cases hverify
    · next hsize =>
      refine ⟨?_, hverify⟩
      simp only [slotSize] at haligned
      simp only [slotsOf, slotSize]
      omega

theorem zero_mem_instructionStarts : 0 ∈ instructionStarts text := by
  obtain ⟨slot, hread⟩ := Slot.exists_read?_iff.2 (verifyFrom_zero_of_verify hverify).1
  rw [instructionStarts, startsFrom, hread]
  exact List.mem_cons_self

theorem checkSlot_of_verify {start : Nat} {slot : Slot} (h : start ∈ instructionStarts text)
    (hread : Slot.read? text start = some slot) : checkSlot text start slot = .ok () :=
  checkSlot_of_verifyFrom (verifyFrom_zero_of_verify hverify).2 h hread

/-- Every slot of a verified text is the start or the second slot of an instruction. -/
theorem start_or_second_of_verify {pc : Nat} (h : pc < slotsOf text) :
    pc ∈ instructionStarts text ∨ IsSecondSlot text pc :=
  start_or_second_of_verifyFrom (verifyFrom_zero_of_verify hverify).2 (Nat.zero_le pc) h

/-- The second slot of an instruction has opcode byte zero. -/
theorem opcode_of_isSecondSlot {pc : Nat} (h : IsSecondSlot text pc) :
    ∃ slot, Slot.read? text pc = some slot ∧ slot.opcode = 0 := by
  obtain ⟨start, hstart, slot, hread, hwide, rfl⟩ := h
  obtain ⟨_, opcode, hopcode, hoperands, _⟩ :=
    checkSlot_eq_ok_iff.1 (checkSlot_of_verify hverify hstart hread)
  obtain rfl : Opcode.wide = opcode := Option.some.inj (hwide.symm.trans hopcode)
  exact exists_second_of_checkOperands hoperands

/-- In a verified text the opcode byte tells the starts of instructions from second slots. -/
theorem mem_instructionStarts_iff {pc : Nat} {slot : Slot}
    (hread : Slot.read? text pc = some slot) :
    pc ∈ instructionStarts text ↔ slot.opcode ≠ 0 := by
  constructor
  · intro hstart
    obtain ⟨_, opcode, hopcode, _⟩ :=
      checkSlot_eq_ok_iff.1 (checkSlot_of_verify hverify hstart hread)
    exact opcode_ne_zero_of_ofByte? hopcode
  · intro hne
    rcases start_or_second_of_verify hverify (Slot.lt_slotsOf_of_read? hread) with hstart | hsecond
    · exact hstart
    · obtain ⟨other, hother, hzero⟩ := opcode_of_isSecondSlot hverify hsecond
      obtain rfl : slot = other := Option.some.inj (hread.symm.trans hother)
      exact absurd hzero hne

/-- Second slots are not boundaries. -/
theorem not_isBoundary_of_isSecondSlot {pc : Nat} (h : IsSecondSlot text pc) :
    ¬ IsBoundary text pc := by
  obtain ⟨slot, hread, hzero⟩ := opcode_of_isSecondSlot hverify h
  rintro (hstart | rfl)
  · exact (mem_instructionStarts_iff hverify hread).1 hstart hzero
  · exact Nat.lt_irrefl _ (Slot.lt_slotsOf_of_read? hread)

/-- Behind an instruction of a verified text there is a boundary. -/
theorem boundary_after_of_verify {start : Nat} {slot : Slot} (h : start ∈ instructionStarts text)
    (hread : Slot.read? text start = some slot) : IsBoundary text (start + slot.length) := by
  rcases next_of_mem_startsFrom h hread with hnext | hend
  · exact .inl hnext
  · right
    have hlt := Slot.lt_slotsOf_of_read? hread
    by_cases hwide : Opcode.ofByte? slot.opcode = some .wide
    · obtain ⟨second, hsecond, _⟩ := opcode_of_isSecondSlot hverify
        (⟨start, h, slot, hread, hwide, rfl⟩ : IsSecondSlot text (start + 1))
      have := Slot.lt_slotsOf_of_read? hsecond
      rw [Slot.length_of_wide hwide] at hend ⊢
      omega
    · rw [Slot.length_of_not_wide hwide] at hend ⊢
      omega

/-- The jumps of a verified text lead to starts of instructions. -/
theorem jumpTarget_of_verify {start : Nat} {slot : Slot} {opcode : Opcode}
    (h : start ∈ instructionStarts text) (hread : Slot.read? text start = some slot)
    (hopcode : Opcode.ofByte? slot.opcode = some opcode) (hjump : opcode.isJump = true) :
    0 ≤ jumpTarget start slot ∧ (jumpTarget start slot).toNat ∈ instructionStarts text := by
  obtain ⟨_, opcode', hopcode', hoperands, _⟩ :=
    checkSlot_eq_ok_iff.1 (checkSlot_of_verify hverify h hread)
  obtain rfl : opcode = opcode' := Option.some.inj (hopcode.symm.trans hopcode')
  obtain ⟨hlow, _, landing, hlanding, hne⟩ :=
    exists_landing_of_checkJump (checkJump_of_checkOperands hjump hoperands)
  exact ⟨hlow, (mem_instructionStarts_iff hverify hlanding).2 hne⟩

end Verified

theorem lt_slotsOf_of_mem_instructionStarts {text : ByteArray} {pc : Nat}
    (h : pc ∈ instructionStarts text) : pc < slotsOf text :=
  Slot.exists_read?_iff.1 (exists_read?_of_mem_startsFrom h)

theorem IsBoundary.le_slotsOf {text : ByteArray} {pc : Nat} (h : IsBoundary text pc) :
    pc ≤ slotsOf text := by
  rcases h with hstart | rfl
  · exact Nat.le_of_lt (lt_slotsOf_of_mem_instructionStarts hstart)
  · exact Nat.le_refl _

end SbfMachine
