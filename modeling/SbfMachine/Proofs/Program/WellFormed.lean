import SbfMachine.Program.Basic
import SbfMachine.Proofs.Bytes
import SbfMachine.Proofs.Outcomes
import SbfMachine.Proofs.Program.Split

/-!
# Well-formed programs

What the machine relies on without looking again: the text lies inside the image, and the entry and
all functions are slots of the text.

## Main definitions

- `FunctionTable.Within` — all functions are slots below a bound, under their own hashes
- `Program.WellFormed` — the facts about a program

## Main statements

- `Program.slot?_eq_read?` — a program and its verification see the same slots
- `Program.wellFormed_of_ofText` — programs made of a bare text are well-formed
-/

namespace SbfMachine

-- ════════════════════════════════════════════════════════════════════════
-- Function tables
-- ════════════════════════════════════════════════════════════════════════

namespace FunctionTable

/-- Every function is a slot below `count` and is entered under its own hash. -/
def Within (functions : FunctionTable) (count : Nat) : Prop :=
  ∀ hash slot, functions.slot? hash = some slot → hash = CallHash.ofSlot slot ∧ slot < count

@[simp]
theorem slot?_empty (hash : UInt32) : empty.slot? hash = none := by
  simp [slot?, empty]

theorem empty_within (count : Nat) : empty.Within count := by
  intro hash slot h
  simp at h

/-- A table answers as before after a function is added, except for the hash of that function. -/
theorem slot?_of_register {functions registered : FunctionTable} {slot : Nat} {hash : UInt32}
    (h : functions.register slot = .ok (hash, registered)) :
    hash = CallHash.ofSlot slot ∧
      ∀ other, registered.slot? other =
        if other = hash then some slot else functions.slot? other := by
  simp only [register] at h
  split at h
  · next existing hexisting =>
    split at h
    · next hsame =>
      cases h
      refine ⟨rfl, fun other => ?_⟩
      split
      · next heq => rw [heq, hexisting, hsame]
      · rfl
    · cases h
  · cases h
    refine ⟨rfl, fun other => ?_⟩
    simp only [slot?, Std.HashMap.getElem?_insert, beq_iff_eq]
    by_cases heq : other = CallHash.ofSlot slot
    · rw [if_pos heq.symm, if_pos heq]
    · rw [if_neg (Ne.symm heq), if_neg heq]

/-- A slot can only be entered where its hash is free or names that slot already. -/
theorem eq_of_register {functions registered : FunctionTable} {slot existing : Nat} {hash : UInt32}
    (h : functions.register slot = .ok (hash, registered))
    (hexisting : functions.slot? (CallHash.ofSlot slot) = some existing) : existing = slot := by
  simp only [register, hexisting] at h
  split at h
  · next hsame => exact hsame
  · cases h

/-- Entering a function adds that function and displaces none. -/
theorem slot?_register_iff {functions registered : FunctionTable} {slot : Nat} {hash : UInt32}
    (h : functions.register slot = .ok (hash, registered)) {other : UInt32} {target : Nat} :
    registered.slot? other = some target ↔
      functions.slot? other = some target ∨ other = CallHash.ofSlot target ∧ target = slot := by
  obtain ⟨rfl, hlookup⟩ := slot?_of_register h
  rw [hlookup]
  by_cases hsame : other = CallHash.ofSlot slot
  · subst hsame
    rw [if_pos rfl]
    constructor
    · intro heq
      obtain rfl := Option.some.inj heq
      exact .inr ⟨rfl, rfl⟩
    · rintro (hbefore | ⟨_, rfl⟩)
      · rw [eq_of_register h hbefore]
      · rfl
  · rw [if_neg hsame]
    refine ⟨.inl, fun h => h.resolve_right ?_⟩
    rintro ⟨hhash, rfl⟩
    exact hsame hhash

theorem Within.register {functions registered : FunctionTable} {count slot : Nat} {hash : UInt32}
    (hwithin : functions.Within count) (hslot : slot < count)
    (h : functions.register slot = .ok (hash, registered)) : registered.Within count := by
  obtain ⟨hhash, hlookup⟩ := slot?_of_register h
  intro other target htarget
  rw [hlookup] at htarget
  split at htarget
  · next heq =>
    obtain rfl := Option.some.inj htarget
    exact ⟨heq.trans hhash, hslot⟩
  · exact hwithin other target htarget

end FunctionTable

/-- Every address of a text of whole slots lies in one of them. -/
theorem TextRange.slot_lt_of_contains (text : TextRange) {address : Nat}
    (haligned : text.size % slotSize = 0) (h : text.contains address = true) :
    (address - text.start) / slotSize < text.slotCount := by
  simp only [contains, slotCount, size, Bool.and_eq_true, decide_eq_true_eq, slotSize]
    at h haligned ⊢
  omega

-- ════════════════════════════════════════════════════════════════════════
-- Relative calls
-- ════════════════════════════════════════════════════════════════════════

namespace Linkage

variable {text : TextRange} {pc count : Nat} {linkage resolved : Linkage}

/-- Resolving a slot leaves everything as it is, or it is the call of a function of the text, which
is entered, and whose hash replaces the immediate. -/
theorem resolveCall_eq_ok (h : resolveCall text pc linkage = .ok resolved) :
    resolved = linkage ∨
      ∃ target hash functions, target < text.slotCount ∧
        linkage.functions.register target = .ok (hash, functions) ∧
        resolved =
          { image :=
              Bytes.writeLE linkage.image (text.slotOffset pc + immediateOffset) hash.toUInt64
                immediateSize
            functions
            calls := linkage.calls + 1 } := by
  unfold resolveCall at h
  split at h
  · exact .inl (Except.ok.inj h).symm
  · next distance _ =>
    dsimp only at h
    split at h
    · cases h
    · next hinside =>
      cases hregister : linkage.functions.register (pc + 1 + distance).toNat with
      | error =>
        rw [hregister] at h
        cases h
      | ok registered =>
        rw [hregister] at h
        exact .inr ⟨_, registered.1, registered.2, by omega, hregister, (Except.ok.inj h).symm⟩

theorem size_of_resolveCall (h : resolveCall text pc linkage = .ok resolved) :
    resolved.image.size = linkage.image.size := by
  obtain rfl | ⟨_, _, _, _, _, rfl⟩ := resolveCall_eq_ok h
  · rfl
  · simp only [Bytes.size_writeLE]

theorem within_of_resolveCall
    (h : resolveCall text pc linkage = .ok resolved)
    (hwithin : linkage.functions.Within text.slotCount) :
    resolved.functions.Within text.slotCount := by
  obtain rfl | ⟨target, hash, functions, htarget, hregister, rfl⟩ := resolveCall_eq_ok h
  · exact hwithin
  · exact hwithin.register htarget hregister

/-- A slot is at most one call. -/
theorem calls_of_resolveCall
    (h : resolveCall text pc linkage = .ok resolved) : resolved.calls ≤ linkage.calls + 1 := by
  obtain rfl | ⟨_, _, _, _, _, rfl⟩ := resolveCall_eq_ok h
  · exact Nat.le_succ _
  · exact Nat.le_refl _

theorem resolveCallsFrom_keeps
    (h : resolveCallsFrom text pc linkage count = .ok resolved)
    (hwithin : linkage.functions.Within text.slotCount) :
    resolved.image.size = linkage.image.size ∧ resolved.functions.Within text.slotCount := by
  induction count generalizing pc linkage with
  | zero =>
    obtain rfl := Except.ok.inj h
    exact ⟨rfl, hwithin⟩
  | succ count ih =>
    rw [resolveCallsFrom] at h
    obtain ⟨next, hcall, hrest⟩ := exists_of_bind_eq_ok h
    obtain ⟨hsize, hresolved⟩ := ih hrest (within_of_resolveCall hcall hwithin)
    exact ⟨hsize.trans (size_of_resolveCall hcall), hresolved⟩

/-- Resolving all calls of an image changes no sizes and finds only functions of the text. -/
theorem resolveCalls_keeps {image : ByteArray}
    (h : (ofImage image).resolveCalls text = .ok resolved) :
    resolved.image.size = image.size ∧ resolved.functions.Within text.slotCount :=
  resolveCallsFrom_keeps h (FunctionTable.empty_within _)

end Linkage

-- ════════════════════════════════════════════════════════════════════════
-- Programs
-- ════════════════════════════════════════════════════════════════════════

namespace Program

/-- What holds of every program that can be built. -/
structure WellFormed (program : Program) : Prop where
  /-- The text is a range of bytes of the image. -/
  start_le_stop : program.text.start ≤ program.text.stop
  stop_le_size : program.text.stop ≤ program.image.size
  /-- The text consists of whole slots. -/
  aligned : program.text.size % slotSize = 0
  /-- Execution begins at a slot of the text. -/
  entryPc_lt : program.entryPc < program.slotCount
  /-- All functions are slots of the text. -/
  functions_within : program.functions.Within program.slotCount

theorem wellFormed_of_ofText {text : ByteArray} {program : Program}
    (h : ofText text = .ok program) : program.WellFormed := by
  simp only [ofText] at h
  split at h
  · cases h
  · next hsize =>
    split at h
    · cases h
    · next linkage hresolve =>
      obtain ⟨himage, hfunctions⟩ := Linkage.resolveCalls_keeps hresolve
      cases h
      refine ⟨Nat.zero_le _, Nat.le_of_eq himage.symm, ?_, ?_, hfunctions⟩
      · simp only [TextRange.size, slotSize] at hsize ⊢
        omega
      · simp only [slotCount, TextRange.slotCount, TextRange.size, slotSize] at hsize ⊢
        omega

/-- A program that is made of a bare text begins with it. -/
theorem start_of_ofText {text : ByteArray} {program : Program} (h : ofText text = .ok program) :
    program.text.start = 0 ∧ program.entryPc = 0 := by
  simp only [ofText] at h
  split at h
  · cases h
  · split at h
    · cases h
    · cases h
      exact ⟨rfl, rfl⟩

/-- The address of a slot is the start of the text and eight bytes for every slot before it. -/
theorem slotOfAddress?_eq_some_iff {program : Program} {address : UInt64} {target : Nat} :
    program.slotOfAddress? address = some target ↔
      target < program.slotCount ∧
        address.toNat = program.textAddress.toNat + slotSize * target := by
  rw [slotOfAddress?, Option.ite_none_right_eq_some, Option.some.injEq]
  simp only [slotSize]
  omega

section Slots

variable {program : Program} (hformed : program.WellFormed)
include hformed

theorem WellFormed.size_textBytes : program.textBytes.size = program.text.size := by
  have hstart := hformed.start_le_stop
  have hstop := hformed.stop_le_size
  simp only [textBytes, ByteArray.size_extract, TextRange.size]
  omega

theorem WellFormed.slotsOf_textBytes : slotsOf program.textBytes = program.slotCount := by
  rw [slotsOf, hformed.size_textBytes]
  rfl

/-- The slots of a program are those that the verification reads from its text. -/
theorem slot?_eq_read? (pc : Nat) : program.slot? pc = Slot.read? program.textBytes pc := by
  have hcount := hformed.slotsOf_textBytes
  have hsize := hformed.size_textBytes
  by_cases hpc : pc < program.slotCount
  · have hinside : slotSize * pc + slotSize ≤ program.textBytes.size := by
      rw [hsize]
      simp only [slotCount, TextRange.slotCount, slotSize] at hpc ⊢
      omega
    have hwindow : Bytes.readLE program.image (program.text.slotOffset pc) slotSize =
        Bytes.readLE program.textBytes (slotSize * pc) slotSize := by
      apply Bytes.readLE_congr
      intro i hi
      rw [textBytes, Bytes.byteAt_extract, if_pos]
      · rw [TextRange.slotOffset, Nat.add_assoc]
      · rw [hsize, TextRange.size] at hinside
        have := hformed.start_le_stop
        omega
    rw [slot?, if_pos hpc, Slot.read?, if_pos hinside, Slot.atOffset, Slot.atOffset, hwindow]
  · rw [slot?, if_neg hpc, eq_comm, Slot.read?_eq_none_iff, hcount]
    exact Nat.le_of_not_lt hpc

end Slots

end Program

end SbfMachine
