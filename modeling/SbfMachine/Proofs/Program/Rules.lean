import Mathlib.Algebra.Group.Nat.Defs
import Mathlib.Order.Bounds.Basic
import SbfMachine.Proofs.Program.Split

/-!
# The rules of well-formed texts

What a text has to be like to be accepted, said without the pass that finds out: it consists of
instructions, each of which obeys a short list of rules. The pass decides whether a jump lands at
the start of an instruction before it has come there, by the opcode byte of the slot alone. This
module proves that it decides right.

## Main definitions

- `OperandRules`, `ObeysRules` — the rules for one instruction
- `LandsOnStart`, `LandsOnOpcode` — the two readings of the rule for jumps
- `WellFormedText` — the texts that consist of instructions that obey the rules
- `ExactVerification` — what the verification finds out about a text

## Main statements

- `obeysRules_iff_checkSlot` — the check of an instruction is right about the rules
- `verifyFrom_eq_ok_iff`, `flawed_of_verifyFrom` — the pass checks every instruction and stops at
  the first that breaks a rule
- `verify_eq_ok_of_wellFormedText` — the text is accepted if its jumps land at starts
- `exactVerification` — the verification accepts the well-formed texts and no others
-/

namespace SbfMachine

-- ════════════════════════════════════════════════════════════════════════
-- The rules
-- ════════════════════════════════════════════════════════════════════════

/-- The rules for the operands of the instruction `opcode` in the slot `pc`, where `lands` says
which targets a jump may have. -/
structure OperandRules (lands : Int → Prop) (text : ByteArray) (pc : Nat) (slot : Slot)
    (opcode : Opcode) : Prop where
  shift : ∀ width op, opcode = .alu width op .imm → op = .lsh ∨ op = .rsh ∨ op = .arsh →
    0 ≤ slot.imm.toInt ∧ slot.imm.toInt < width.bits
  divisor : ∀ width op, opcode = .alu width op .imm → op = .div ∨ op = .mod ∨ op = .sdiv →
    slot.imm.toInt ≠ 0
  swapWidth : ∀ order, opcode = .swap order →
    slot.imm.toInt = 16 ∨ slot.imm.toInt = 32 ∨ slot.imm.toInt = 64
  callRegister : opcode = .callRegister → 0 ≤ slot.imm.toInt ∧ slot.imm.toInt ≤ 9
  second : opcode = .wide → ∃ second, Slot.read? text (pc + 1) = some second ∧ second.opcode = 0
  jump : opcode = .jump ∨ (∃ condition form, opcode = .branch condition form) →
    lands (pc + 1 + slot.off.toInt)

/-- In slot `pc` there is an instruction that obeys the rules. Stores read their destination
register and do not write it, so theirs may be the frame pointer. -/
def ObeysRules (lands : Int → Prop) (text : ByteArray) (pc : Nat) : Prop :=
  ∃ slot opcode, Slot.read? text pc = some slot ∧ Opcode.ofByte? slot.opcode = some opcode ∧
    slot.src.val ≤ 10 ∧
    (slot.dst.val ≤ 9 ∨ slot.dst.val ≤ 10 ∧ ∃ width form, opcode = .store width form) ∧
    OperandRules lands text pc slot opcode

/-- An instruction starts at the target. -/
def LandsOnStart (text : ByteArray) (target : Int) : Prop :=
  ∃ start ∈ instructionStarts text, target = start

/-- The target is a slot of the text whose opcode byte is not zero. -/
def LandsOnOpcode (text : ByteArray) (target : Int) : Prop :=
  ∃ pc slot, target = (pc : Nat) ∧ Slot.read? text pc = some slot ∧ slot.opcode ≠ 0

/-- The text consists of whole slots, at least one. -/
def HasSlots (text : ByteArray) : Prop :=
  0 < text.size ∧ text.size % 8 = 0

/-- The text consists of instructions that obey the rules, and jumps land where instructions
start. -/
structure WellFormedText (text : ByteArray) : Prop where
  slots : HasSlots text
  instructions : ∀ start ∈ instructionStarts text, ObeysRules (LandsOnStart text) text start

-- ════════════════════════════════════════════════════════════════════════
-- Checking one instruction
-- ════════════════════════════════════════════════════════════════════════

section Check

variable {text : ByteArray} {pc : Nat} {slot : Slot} {opcode : Opcode}

/-- A number of 32 bits is below a bound that a signed one can have iff it is that small as a
signed number and not negative. -/
theorem uimm_lt_iff {bound : Nat} (hbound : bound < 2 ^ 31) :
    slot.uimm.toNat < bound ↔ 0 ≤ slot.imm.toInt ∧ slot.imm.toInt < bound := by
  have hword : slot.imm.toInt = (slot.uimm.toNat : Int).bmod (2 ^ 32) :=
    BitVec.toInt_eq_toNat_bmod slot.imm.toBitVec
  have hlt : slot.uimm.toNat < 2 ^ 32 := slot.uimm.toNat_lt
  rw [hword, Int.bmod_def]
  omega

theorem checkJump_eq_ok_iff :
    checkJump text pc slot = .ok () ↔ LandsOnOpcode text (jumpTarget pc slot) := by
  constructor
  · intro h
    obtain ⟨hlow, _, landing, hread, hne⟩ := exists_landing_of_checkJump h
    exact ⟨_, landing, (Int.toNat_of_nonneg hlow).symm, hread, hne⟩
  · rintro ⟨target, landing, htarget, hread, hne⟩
    have hinside := Slot.lt_slotsOf_of_read? hread
    simp only [slotsOf] at hinside
    have hrange :
        ¬(jumpTarget pc slot < 0 ∨ (text.size / slotSize : Nat) ≤ jumpTarget pc slot) := by
      omega
    rw [htarget] at hrange
    simp only [checkJump, htarget, if_neg hrange, Int.toNat_natCast, hread, if_neg hne]

theorem OperandRules.of_checkOperands (h : checkOperands text pc slot opcode = .ok ()) :
    OperandRules (LandsOnOpcode text) text pc slot opcode := by
  refine ⟨?_, ?_, ?_, ?_, ?_, ?_⟩
  · rintro width op rfl hop
    have hshift : op.isShift = true := by rcases hop with rfl | rfl | rfl <;> rfl
    simp only [checkOperands, hshift, true_and] at h
    split at h
    · cases h
    · next hsmall =>
      refine (uimm_lt_iff ?_).1 (Nat.lt_of_not_le hsmall)
      cases width <;> decide
  · rintro width op rfl hop hzero
    have hdivision : op.isDivision = true := by rcases hop with rfl | rfl | rfl <;> rfl
    have hshift : op.isShift = false := by rcases hop with rfl | rfl | rfl <;> rfl
    have himm : slot.imm = 0 := Int32.toInt_inj.1 hzero
    simp [checkOperands, hdivision, hshift, himm] at h
  · rintro order rfl
    simp only [checkOperands] at h
    split at h
    · next hwidth =>
      simp only [← Int32.toInt_inj] at hwidth
      exact hwidth
    · cases h
  · rintro rfl
    have hregister := register_of_checkOperands h
    have hbound := (uimm_lt_iff (show 10 < 2 ^ 31 by decide)).1 (Nat.lt_succ_of_le hregister)
    exact ⟨hbound.1, Int.le_of_lt_add_one hbound.2⟩
  · rintro rfl
    exact exists_second_of_checkOperands h
  · intro hjump
    refine checkJump_eq_ok_iff.1 (checkJump_of_checkOperands ?_ h)
    rcases hjump with rfl | ⟨_, _, rfl⟩ <;> rfl

theorem OperandRules.checkOperands (h : OperandRules (LandsOnOpcode text) text pc slot opcode) :
    checkOperands text pc slot opcode = .ok () := by
  cases opcode with
  | wide =>
    obtain ⟨second, hread, hzero⟩ := h.second rfl
    simp only [SbfMachine.checkOperands, hread, if_pos hzero]
  | alu width op form =>
    cases form with
    | reg => rfl
    | imm =>
      have hshift : ¬(op.isShift = true ∧ width.bits ≤ slot.uimm.toNat) := by
        rintro ⟨hshift, hlarge⟩
        have hop : op = .lsh ∨ op = .rsh ∨ op = .arsh := by cases op <;> simp_all [AluOp.isShift]
        have hbits : width.bits < 2 ^ 31 := by cases width <;> decide
        exact Nat.not_lt.2 hlarge ((uimm_lt_iff hbits).2 (h.shift width op rfl hop))
      have hdivisor : ¬(op.isDivision = true ∧ slot.imm = 0) := by
        rintro ⟨hdivision, hzero⟩
        have hop : op = .div ∨ op = .mod ∨ op = .sdiv := by
          cases op <;> simp_all [AluOp.isDivision]
        exact h.divisor width op rfl hop (by rw [hzero]; rfl)
      simp only [SbfMachine.checkOperands, if_neg hshift, if_neg hdivisor]
  | swap order =>
    have hwidth := h.swapWidth order rfl
    refine if_pos ?_
    simp only [← Int32.toInt_inj]
    exact hwidth
  | jump => exact checkJump_eq_ok_iff.2 (h.jump (.inl rfl))
  | branch condition form => exact checkJump_eq_ok_iff.2 (h.jump (.inr ⟨condition, form, rfl⟩))
  | callRegister =>
    obtain ⟨hlow, hhigh⟩ := h.callRegister rfl
    have hsmall : slot.uimm.toNat < 10 :=
      (uimm_lt_iff (by decide)).2 ⟨hlow, Int.lt_add_one_of_le hhigh⟩
    exact if_neg (Nat.not_lt.2 (Nat.le_of_lt_succ hsmall))
  | load | store | neg | call | exit => rfl

theorem dst_le_maxDestination_iff :
    slot.dst.val ≤ maxDestination opcode ↔
      slot.dst.val ≤ 9 ∨ slot.dst.val ≤ 10 ∧ ∃ width form, opcode = .store width form := by
  cases opcode with
  | store width form =>
    have hbound : maxDestination (.store width form) = 10 := rfl
    simp only [hbound, Opcode.store.injEq, exists_and_left, exists_eq', and_true]
    omega
  | _ =>
    simp only [reduceCtorEq, exists_false, and_false, or_false]
    rfl

/-- The check of a slot is right about the rules, where jumps are judged by the opcode byte of the
slot that they land in. -/
theorem obeysRules_iff_checkSlot (hread : Slot.read? text pc = some slot) :
    ObeysRules (LandsOnOpcode text) text pc ↔ checkSlot text pc slot = .ok () := by
  rw [checkSlot_eq_ok_iff]
  constructor
  · rintro ⟨other, opcode, hother, hopcode, hsrc, hdst, hrules⟩
    obtain rfl : slot = other := Option.some.inj (hread.symm.trans hother)
    exact ⟨hsrc, opcode, hopcode, hrules.checkOperands, dst_le_maxDestination_iff.2 hdst⟩
  · rintro ⟨hsrc, opcode, hopcode, hoperands, hdst⟩
    exact ⟨slot, opcode, hread, hopcode, hsrc, dst_le_maxDestination_iff.1 hdst,
      .of_checkOperands hoperands⟩

end Check

-- ════════════════════════════════════════════════════════════════════════
-- The pass
-- ════════════════════════════════════════════════════════════════════════

section Pass

variable {text : ByteArray}

theorem le_of_mem_startsFrom {pc start : Nat} (h : start ∈ startsFrom text pc) : pc ≤ start := by
  induction pc using startsFrom.induct text with
  | case1 pc hread =>
    rw [startsFrom, hread] at h
    cases h
  | case2 pc slot hread ih =>
    rw [startsFrom, hread] at h
    rcases List.mem_cons.1 h with rfl | hrest
    · exact Nat.le_refl _
    · exact Nat.le_trans (Nat.le_add_right _ _) (ih hrest)

/-- The pass accepts the rest of a text iff every instruction of it obeys the rules. -/
theorem verifyFrom_eq_ok_iff {pc : Nat} :
    verifyFrom text pc = .ok () ↔
      ∀ start ∈ startsFrom text pc, ObeysRules (LandsOnOpcode text) text start := by
  induction pc using startsFrom.induct text with
  | case1 pc hread =>
    rw [verifyFrom, startsFrom, hread]
    simp
  | case2 pc slot hread ih =>
    rw [verifyFrom, startsFrom, hread]
    simp only [List.forall_mem_cons, obeysRules_iff_checkSlot hread, ← ih]
    cases checkSlot text pc slot with
    | error => simp
    | ok => simp

/-- Where the pass stops, it is at the first instruction that breaks a rule. -/
theorem flawed_of_verifyFrom {pc : Nat} {error : VerifyError}
    (h : verifyFrom text pc = .error error) :
    ∃ start, error.pc? = some start ∧
      IsLeast {start | start ∈ startsFrom text pc ∧ ¬ObeysRules (LandsOnOpcode text) text start}
        start := by
  induction pc using startsFrom.induct text with
  | case1 pc hread =>
    rw [verifyFrom, hread] at h
    cases h
  | case2 pc slot hread ih =>
    rw [verifyFrom, hread] at h
    rw [startsFrom, hread]
    cases hcheck : checkSlot text pc slot with
    | error flaw =>
      simp only [hcheck, Except.error.injEq] at h
      subst h
      have hbroken : ¬ObeysRules (LandsOnOpcode text) text pc := by
        rw [obeysRules_iff_checkSlot hread, hcheck]
        intro hok
        cases hok
      refine ⟨pc, rfl, ⟨List.mem_cons_self, hbroken⟩, ?_⟩
      rintro other ⟨hmem, -⟩
      rcases List.mem_cons.1 hmem with rfl | hrest
      · exact Nat.le_refl _
      · exact Nat.le_trans (Nat.le_add_right _ _) (le_of_mem_startsFrom hrest)
    | ok =>
      simp only [hcheck] at h
      obtain ⟨start, hpc, ⟨hmem, hbroken⟩, hleast⟩ := ih h
      refine ⟨start, hpc, ⟨List.mem_cons_of_mem pc hmem, hbroken⟩, ?_⟩
      rintro other ⟨hother, hflawed⟩
      rcases List.mem_cons.1 hother with rfl | hrest
      · exact absurd ((obeysRules_iff_checkSlot hread).2 hcheck) hflawed
      · exact hleast ⟨hrest, hflawed⟩

/-- A text that has slots is passed over from its first slot on; others are rejected as a whole. -/
theorem verify_eq_of_hasSlots (h : HasSlots text) : verify text = verifyFrom text 0 := by
  obtain ⟨hpositive, haligned⟩ := h
  rw [verify, if_neg, if_neg]
  · omega
  · simp only [slotSize]
    omega

theorem verify_of_not_hasSlots (h : ¬HasSlots text) :
    ∃ error, verify text = .error error ∧ error.pc? = none := by
  unfold verify
  split
  · exact ⟨_, rfl, rfl⟩
  · next haligned =>
    split
    · exact ⟨_, rfl, rfl⟩
    · next hsize =>
      simp only [slotSize] at haligned
      exact absurd ⟨by omega, by omega⟩ h

end Pass

-- ════════════════════════════════════════════════════════════════════════
-- Where jumps land
-- ════════════════════════════════════════════════════════════════════════

section Jumps

variable {text : ByteArray}

theorem OperandRules.imp {lands lands' : Int → Prop} (himp : ∀ target, lands target → lands' target)
    {pc : Nat} {slot : Slot} {opcode : Opcode} (h : OperandRules lands text pc slot opcode) :
    OperandRules lands' text pc slot opcode :=
  ⟨h.shift, h.divisor, h.swapWidth, h.callRegister, h.second, fun hjump => himp _ (h.jump hjump)⟩

theorem ObeysRules.imp {lands lands' : Int → Prop} (himp : ∀ target, lands target → lands' target)
    {pc : Nat} (h : ObeysRules lands text pc) : ObeysRules lands' text pc := by
  obtain ⟨slot, opcode, hread, hopcode, hsrc, hdst, hrules⟩ := h
  exact ⟨slot, opcode, hread, hopcode, hsrc, hdst, hrules.imp himp⟩

/-- Where an instruction starts, the opcode byte is not zero. -/
theorem landsOnOpcode_of_landsOnStart {lands : Int → Prop}
    (hrules : ∀ start ∈ instructionStarts text, ObeysRules lands text start) {target : Int}
    (h : LandsOnStart text target) : LandsOnOpcode text target := by
  obtain ⟨start, hmem, rfl⟩ := h
  obtain ⟨slot, opcode, hread, hopcode, -⟩ := hrules start hmem
  exact ⟨start, slot, rfl, hread, opcode_ne_zero_of_ofByte? hopcode⟩

/-- In an accepted text the two readings of the rule for jumps are the same. -/
theorem landsOnStart_iff_landsOnOpcode (hverify : verify text = .ok ()) (target : Int) :
    LandsOnStart text target ↔ LandsOnOpcode text target := by
  constructor
  · exact landsOnOpcode_of_landsOnStart
      (verifyFrom_eq_ok_iff.1 (verifyFrom_zero_of_verify hverify).2)
  · rintro ⟨pc, slot, rfl, hread, hne⟩
    exact ⟨pc, (mem_instructionStarts_iff hverify hread).2 hne, rfl⟩

theorem verify_eq_ok_of_wellFormedText (h : WellFormedText text) : verify text = .ok () := by
  rw [verify_eq_of_hasSlots h.slots, verifyFrom_eq_ok_iff]
  intro start hstart
  exact (h.instructions start hstart).imp fun _ => landsOnOpcode_of_landsOnStart h.instructions

theorem wellFormedText_of_verify (hverify : verify text = .ok ()) : WellFormedText text := by
  have hslots : HasSlots text := by
    by_contra hnone
    obtain ⟨error, herror, _⟩ := verify_of_not_hasSlots hnone
    rw [hverify] at herror
    cases herror
  refine ⟨hslots, fun start hstart => ?_⟩
  rw [verify_eq_of_hasSlots hslots, verifyFrom_eq_ok_iff] at hverify
  refine (hverify start hstart).imp fun target => ?_
  rw [← verifyFrom_eq_ok_iff, ← verify_eq_of_hasSlots hslots] at hverify
  exact (landsOnStart_iff_landsOnOpcode hverify target).2

end Jumps

/-- What the verification finds out about a text. -/
structure ExactVerification (text : ByteArray) : Prop where
  /-- It accepts the well-formed texts. -/
  accepts : verify text = .ok () ↔ WellFormedText text
  /-- It rejects a text as a whole for its size, or else for the first instruction that breaks a
  rule, where jumps are judged by the opcode byte of the slot that they land in. -/
  rejects : ∀ error, verify text = .error error →
    ¬HasSlots text ∧ error.pc? = none ∨
      HasSlots text ∧ ∃ pc, error.pc? = some pc ∧
        IsLeast
          {start | start ∈ instructionStarts text ∧ ¬ObeysRules (LandsOnOpcode text) text start} pc
  /-- Once a text is accepted, that judgement is the same as where instructions start. -/
  jumps : verify text = .ok () →
    ∀ target, LandsOnStart text target ↔ LandsOnOpcode text target

/-- The verification accepts the well-formed texts and no others, and when it rejects one, it
points to the first instruction that breaks a rule. -/
theorem exactVerification (text : ByteArray) : ExactVerification text where
  accepts := ⟨wellFormedText_of_verify, verify_eq_ok_of_wellFormedText⟩
  rejects error herror := by
    by_cases hslots : HasSlots text
    · rw [verify_eq_of_hasSlots hslots] at herror
      exact .inr ⟨hslots, flawed_of_verifyFrom herror⟩
    · obtain ⟨other, hother, hnone⟩ := verify_of_not_hasSlots hslots
      rw [hother] at herror
      obtain rfl := Except.error.inj herror
      exact .inl ⟨hslots, hnone⟩
  jumps := landsOnStart_iff_landsOnOpcode

/-- A loop: a number is loaded by an instruction of two slots and counted down, and a branch goes
back by the given offset. -/
def countdown (offset : Int16) : ByteArray :=
  encodeText [.new 0x18 1 0 0 5, .new 0 0 0 0 0, .new 0x17 1 0 0 1, .new 0x55 1 0 offset 0,
    .new 0x95 0 0 0 0]

/-- The loop may begin with its two slots. If the branch goes to the second of them, where no
instruction starts, then it is the first to break a rule. -/
theorem exactVerification_countdown :
    (WellFormedText (countdown (-4)) ∧ LandsOnStart (countdown (-4)) 0 ∧
        ¬LandsOnStart (countdown (-4)) 1) ∧
      ¬WellFormedText (countdown (-3)) ∧
        IsLeast {start | start ∈ instructionStarts (countdown (-3)) ∧
          ¬ObeysRules (LandsOnOpcode (countdown (-3))) (countdown (-3)) start} 3 := by
  have haccepted : verify (countdown (-4)) = .ok () := by decide +kernel
  have hrejected : verify (countdown (-3)) = .error (.flawed 3 (.jumpIntoWide 1)) := by
    decide +kernel
  refine ⟨⟨(exactVerification _).accepts.1 haccepted, ?_, ?_⟩, ?_, ?_⟩
  · rw [(exactVerification _).jumps haccepted]
    exact ⟨0, _, rfl, rfl, by decide⟩
  · rw [(exactVerification _).jumps haccepted]
    rintro ⟨pc, slot, hpc, hread, hne⟩
    obtain rfl : 1 = pc := Int.ofNat.inj hpc
    have hsecond : Slot.read? (countdown (-4)) 1 = some (.new 0 0 0 0 0) := rfl
    rw [hsecond] at hread
    obtain rfl := Option.some.inj hread
    exact hne rfl
  · rw [← (exactVerification _).accepts, hrejected]
    exact nofun
  · obtain ⟨_, hnone⟩ | ⟨_, pc, hpc, hleast⟩ := (exactVerification _).rejects _ hrejected
    · cases hnone
    · obtain rfl := Option.some.inj hpc
      exact hleast

end SbfMachine
