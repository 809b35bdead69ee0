import Mathlib.Data.List.Basic
import SbfMachine.Proofs.CallHash
import SbfMachine.Proofs.Isa.Slot

/-!
# What resolving calls does

The relative calls of a text can be listed before any of them is resolved: resolving a call changes
the immediate of its slot only, and the slots behind it are read later. So resolving all calls
writes the hash of each target into the call and enters the target, for the calls of this list.

## Main definitions

- `TextRange.writeImmediate` — the immediate of a slot is replaced
- `RelativeCall`, `relativeCalls` — the relative calls of a text
- `Linkage.Resolved` — what resolving calls does

## Main statements

- `TextRange.atOffset_writeImmediate` — writing an immediate changes one slot
- `Linkage.resolved_of_resolveCallsFrom` — that is all it does
- `Linkage.resolveCallsFrom_cases` — it ends at the first call that goes elsewhere, if there is one
- `Linkage.exists_resolveCalls` — calls that go to slots of the text are resolved
- `Linkage.resolveCalls_surrounded` — what stands around the text makes no difference
-/

namespace SbfMachine

/-- Replaces the immediate of slot `pc` of a text. -/
def TextRange.writeImmediate (text : TextRange) (image : ByteArray) (pc : Nat) (imm : UInt32) :
    ByteArray :=
  Bytes.writeLE image (text.slotOffset pc + immediateOffset) imm.toUInt64 immediateSize

/-- A relative call and the slot that it goes to. -/
structure RelativeCall where
  pc : Nat
  target : Int
  deriving DecidableEq

namespace RelativeCall

/-- The relative call in slot `pc`, if there is one. -/
def at? (text : TextRange) (image : ByteArray) (pc : Nat) : Option RelativeCall :=
  (Slot.atOffset image (text.slotOffset pc)).callDistance?.map fun distance =>
    { pc, target := pc + 1 + distance }

/-- The call goes to a slot of the text. -/
def Inside (text : TextRange) (call : RelativeCall) : Prop :=
  0 ≤ call.target ∧ call.target < text.slotCount

instance (text : TextRange) (call : RelativeCall) : Decidable (call.Inside text) :=
  inferInstanceAs (Decidable (_ ∧ _))

/-- Names the target by its hash. -/
def write (text : TextRange) (image : ByteArray) (call : RelativeCall) : ByteArray :=
  text.writeImmediate image call.pc (CallHash.ofSlot call.target.toNat)

end RelativeCall

/-- Relative calls are calls. -/
theorem Slot.opcode_of_callDistance? {slot : Slot} {distance : Int}
    (h : slot.callDistance? = some distance) : slot.opcode = Opcode.call.toByte := by
  unfold callDistance? at h
  split at h
  · next hcall => exact hcall.1
  · cases h

theorem RelativeCall.at?_eq_some_iff {text : TextRange} {image : ByteArray} {pc : Nat}
    {call : RelativeCall} :
    RelativeCall.at? text image pc = some call ↔
      ∃ distance, (Slot.atOffset image (text.slotOffset pc)).callDistance? = some distance ∧
        { pc, target := pc + 1 + distance } = call := by
  rw [RelativeCall.at?, Option.map_eq_some_iff]

theorem RelativeCall.pc_of_at? {text : TextRange} {image : ByteArray} {pc : Nat}
    {call : RelativeCall} (h : RelativeCall.at? text image pc = some call) : call.pc = pc := by
  obtain ⟨distance, _, rfl⟩ := RelativeCall.at?_eq_some_iff.1 h
  rfl

/-- The relative calls among the `count` slots from `pc` on. -/
def relativeCalls (text : TextRange) (image : ByteArray) (pc count : Nat) : List RelativeCall :=
  (List.range' pc count).filterMap (RelativeCall.at? text image)

-- ════════════════════════════════════════════════════════════════════════
-- Reading calls
-- ════════════════════════════════════════════════════════════════════════

variable {text : TextRange} {image : ByteArray} {pc count : Nat}

theorem relativeCalls_zero : relativeCalls text image pc 0 = [] :=
  rfl

theorem relativeCalls_succ :
    relativeCalls text image pc (count + 1) =
      (RelativeCall.at? text image pc).toList ++ relativeCalls text image (pc + 1) count := by
  rw [relativeCalls, List.range'_succ, List.filterMap_cons, relativeCalls]
  cases RelativeCall.at? text image pc <;> rfl

theorem mem_relativeCalls_iff {call : RelativeCall} :
    call ∈ relativeCalls text image pc count ↔
      (pc ≤ call.pc ∧ call.pc < pc + count) ∧ RelativeCall.at? text image call.pc = some call := by
  rw [relativeCalls, List.mem_filterMap]
  constructor
  · rintro ⟨slot, hslot, hcall⟩
    rw [List.mem_range'_1] at hslot
    rw [RelativeCall.pc_of_at? hcall]
    exact ⟨hslot, hcall⟩
  · rintro ⟨hrange, hcall⟩
    exact ⟨call.pc, List.mem_range'_1.2 hrange, hcall⟩

/-- The calls of a list are slots with a call. -/
theorem opcode_of_mem_relativeCalls {call : RelativeCall}
    (h : call ∈ relativeCalls text image pc count) :
    call.pc < pc + count ∧
      (Slot.atOffset image (text.slotOffset call.pc)).opcode = Opcode.call.toByte := by
  obtain ⟨⟨_, hlt⟩, hat⟩ := mem_relativeCalls_iff.1 h
  obtain ⟨distance, hdistance, _⟩ := RelativeCall.at?_eq_some_iff.1 hat
  exact ⟨hlt, Slot.opcode_of_callDistance? hdistance⟩

/-- The calls depend only on the slots that are looked at. -/
theorem relativeCalls_congr {other : TextRange} {image' : ByteArray}
    (h : ∀ slot, pc ≤ slot → slot < pc + count →
      (Slot.atOffset image (text.slotOffset slot)).callDistance? =
        (Slot.atOffset image' (other.slotOffset slot)).callDistance?) :
    relativeCalls text image pc count = relativeCalls other image' pc count := by
  apply List.filterMap_congr
  intro slot hslot
  rw [List.mem_range'_1] at hslot
  rw [RelativeCall.at?, RelativeCall.at?, h slot hslot.1 hslot.2]

theorem atOffset_congr {image image' : ByteArray} {start place : Nat}
    (h : ∀ i, i < slotSize → Bytes.byteAt image (start + i) = Bytes.byteAt image' (place + i)) :
    Slot.atOffset image start = Slot.atOffset image' place := by
  rw [Slot.atOffset, Slot.atOffset, Bytes.readLE_congr h]

-- ════════════════════════════════════════════════════════════════════════
-- Writing immediates
-- ════════════════════════════════════════════════════════════════════════

namespace TextRange

variable (imm : UInt32)

@[simp]
theorem size_writeImmediate (text : TextRange) (image : ByteArray) (pc : Nat) :
    (text.writeImmediate image pc imm).size = image.size :=
  Bytes.size_writeLE ..

/-- The other slots stay as they are. -/
theorem atOffset_writeImmediate_of_ne {slot : Nat} (h : slot ≠ pc) :
    Slot.atOffset (text.writeImmediate image pc imm) (text.slotOffset slot) =
      Slot.atOffset image (text.slotOffset slot) := by
  refine atOffset_congr fun i hi => ?_
  simp only [slotSize] at hi
  rw [writeImmediate, Bytes.byteAt_writeLE, if_neg]
  simp only [slotOffset, slotSize, immediateOffset, immediateSize]
  omega

/-- The low halves of slots stay as they are. -/
theorem readLE_foldl_writeImmediate {α : Type} {items : List α} {pc : α → Nat} {imm : α → UInt32}
    (text : TextRange) (image : ByteArray) (slot : Nat) :
    Bytes.readLE (items.foldl (fun image item => text.writeImmediate image (pc item) (imm item))
        image) (text.slotOffset slot) immediateOffset =
      Bytes.readLE image (text.slotOffset slot) immediateOffset := by
  induction items generalizing image with
  | nil => rfl
  | cons item items ih =>
    rw [List.foldl_cons, ih]
    refine (Bytes.agreeExcept_writeLE _ _ _ _).readLE_eq fun i hi hwindow => ?_
    simp only [Bytes.InWindow, slotOffset, slotSize, immediateOffset, immediateSize] at hi hwindow
    omega

/-- Writing an immediate changes one slot. -/
theorem atOffset_writeImmediate {slot : Nat} (h : text.slotOffset pc + slotSize ≤ image.size) :
    Slot.atOffset (text.writeImmediate image pc imm) (text.slotOffset slot) =
      if slot = pc then (Slot.atOffset image (text.slotOffset slot)).withImm imm
      else Slot.atOffset image (text.slotOffset slot) := by
  split
  · next heq =>
    subst heq
    exact Slot.atOffset_writeLE_immediate imm h
  · next hne => exact atOffset_writeImmediate_of_ne imm hne

section Surrounded

variable {slots : ByteArray} {outer inner : TextRange} (front behind : ByteArray)

theorem writeImmediate_surrounded (houter : outer.start = front.size) (hinner : inner.start = 0)
    (h : slotSize * pc + slotSize ≤ slots.size) :
    outer.writeImmediate (front ++ slots ++ behind) pc imm =
      front ++ inner.writeImmediate slots pc imm ++ behind := by
  simp only [slotSize] at h
  simp only [writeImmediate, slotOffset, houter, hinner, Nat.zero_add, Nat.add_assoc]
  refine Bytes.writeLE_surrounded front behind imm.toUInt64 ?_
  simp only [slotSize, immediateOffset, immediateSize]
  omega

/-- Slots are read in the same way wherever the text stands. -/
theorem atOffset_surrounded (houter : outer.start = front.size) (hinner : inner.start = 0)
    (h : slotSize * pc + slotSize ≤ slots.size) :
    Slot.atOffset (front ++ slots ++ behind) (outer.slotOffset pc) =
      Slot.atOffset slots (inner.slotOffset pc) := by
  refine atOffset_congr fun i hi => ?_
  simp only [slotSize] at h hi
  simp only [slotOffset, houter, hinner, slotSize, Bytes.byteAt_append, ByteArray.size_append]
  rw [if_pos (by omega), if_neg (by omega)]
  congr 1
  omega

/-- Immediates are written in the same way wherever the text stands. -/
theorem foldl_writeImmediate_surrounded {α : Type} {items : List α} {pc : α → Nat}
    {imm : α → UInt32} (houter : outer.start = front.size) (hinner : inner.start = 0)
    (hinside : ∀ item ∈ items, pc item < slots.size / slotSize) :
    items.foldl (fun image item => outer.writeImmediate image (pc item) (imm item))
        (front ++ slots ++ behind) =
      front ++ items.foldl (fun image item => inner.writeImmediate image (pc item) (imm item))
        slots ++ behind := by
  induction items generalizing slots with
  | nil => rfl
  | cons item items ih =>
    obtain ⟨hfirst, hrest⟩ := List.forall_mem_cons.1 hinside
    have hslot : slotSize * pc item + slotSize ≤ slots.size := by
      simp only [slotSize] at hfirst ⊢
      omega
    rw [List.foldl_cons, List.foldl_cons,
      writeImmediate_surrounded (imm item) front behind houter hinner hslot]
    exact ih (by simpa only [size_writeImmediate] using hrest)

end Surrounded

end TextRange

/-- Writing the immediate of a slot leaves the slots behind it as they are. -/
theorem relativeCalls_writeImmediate (imm : UInt32) :
    relativeCalls text (text.writeImmediate image pc imm) (pc + 1) count =
      relativeCalls text image (pc + 1) count := by
  refine relativeCalls_congr fun slot hfirst _ => ?_
  rw [TextRange.atOffset_writeImmediate_of_ne imm (by omega)]

theorem RelativeCall.foldl_write_surrounded {calls : List RelativeCall} {slots : ByteArray}
    {outer inner : TextRange} (front behind : ByteArray) (houter : outer.start = front.size)
    (hinner : inner.start = 0) (hinside : ∀ call ∈ calls, call.pc < slots.size / slotSize) :
    calls.foldl (RelativeCall.write outer) (front ++ slots ++ behind) =
      front ++ calls.foldl (RelativeCall.write inner) slots ++ behind :=
  TextRange.foldl_writeImmediate_surrounded front behind houter hinner hinside

/-- Naming the targets of calls changes the immediates of the calls only. -/
theorem RelativeCall.agreeExcept_foldl_write (text : TextRange) (calls : List RelativeCall)
    (image : ByteArray) :
    Bytes.AgreeExcept
      (fun i => ∃ call ∈ calls,
        Bytes.InWindow (text.slotOffset call.pc + immediateOffset) immediateSize i)
      (calls.foldl (RelativeCall.write text) image) image := by
  induction calls generalizing image with
  | nil => exact .refl _ image
  | cons call calls ih =>
    have hfirst : Bytes.AgreeExcept
        (Bytes.InWindow (text.slotOffset call.pc + immediateOffset) immediateSize)
        (call.write text image) image := by
      rw [RelativeCall.write, TextRange.writeImmediate]
      exact Bytes.agreeExcept_writeLE image _ _ _
    rw [List.foldl_cons]
    refine ((ih (call.write text image)).mono ?_).trans (hfirst.mono ?_)
    · rintro i ⟨later, hlater, hplace⟩
      exact ⟨later, List.mem_cons_of_mem call hlater, hplace⟩
    · exact fun i hplace => ⟨call, List.mem_cons_self, hplace⟩

-- ════════════════════════════════════════════════════════════════════════
-- Resolving calls
-- ════════════════════════════════════════════════════════════════════════

namespace Linkage

variable {before after : Linkage}

/-- The calls of a list, all of which go to slots of the text, have been resolved. -/
structure Resolved (text : TextRange) (calls : List RelativeCall) (before after : Linkage) :
    Prop where
  inside : ∀ call ∈ calls, call.Inside text
  image : after.image = calls.foldl (RelativeCall.write text) before.image
  functions : ∀ hash slot, after.functions.slot? hash = some slot ↔
    before.functions.slot? hash = some slot ∨
      hash = CallHash.ofSlot slot ∧ ∃ call ∈ calls, call.target = (slot : Int)
  calls : after.calls = before.calls + calls.length

/-- A slot that is no relative call is left alone. -/
theorem resolveCall_of_none (h : RelativeCall.at? text before.image pc = none) :
    resolveCall text pc before = .ok before := by
  rw [RelativeCall.at?, Option.map_eq_none_iff] at h
  unfold resolveCall
  simp only [h]

/-- A relative call to a slot of the text enters that slot and is named by its hash. -/
theorem resolveCall_of_some {call : RelativeCall}
    (h : RelativeCall.at? text before.image pc = some call) (hinside : call.Inside text)
    {hash : UInt32} {registered : FunctionTable}
    (hregister : before.functions.register call.target.toNat = .ok (hash, registered)) :
    resolveCall text pc before =
      .ok
        { image := call.write text before.image
          functions := registered
          calls := before.calls + 1 } := by
  obtain ⟨hhash, _⟩ := FunctionTable.slot?_of_register hregister
  obtain ⟨distance, hdistance, rfl⟩ := RelativeCall.at?_eq_some_iff.1 h
  obtain ⟨hnonneg, hlt⟩ := hinside
  dsimp only at hregister hnonneg hlt
  unfold resolveCall
  simp only [hdistance]
  rw [if_neg (by omega), hregister, hhash]
  rfl

/-- A relative call that goes elsewhere is an error. -/
theorem resolveCall_of_outside {call : RelativeCall}
    (h : RelativeCall.at? text before.image pc = some call) (houtside : ¬call.Inside text) :
    resolveCall text pc before = .error (.callOutOfBounds call.pc call.target) := by
  obtain ⟨distance, hdistance, rfl⟩ := RelativeCall.at?_eq_some_iff.1 h
  rw [RelativeCall.Inside] at houtside
  dsimp only at houtside
  unfold resolveCall
  simp only [hdistance]
  rw [if_pos (by omega)]

/-- A relative call that is resolved goes to a slot of the text, which has been entered. -/
theorem inside_of_resolveCall {call : RelativeCall}
    (h : RelativeCall.at? text before.image pc = some call)
    (hresolve : resolveCall text pc before = .ok after) :
    call.Inside text ∧
      ∃ hash registered, before.functions.register call.target.toNat = .ok (hash, registered) := by
  obtain ⟨distance, hdistance, rfl⟩ := RelativeCall.at?_eq_some_iff.1 h
  unfold resolveCall at hresolve
  simp only [hdistance] at hresolve
  split at hresolve
  · cases hresolve
  · refine ⟨⟨?_, ?_⟩, ?_⟩
    · dsimp only
      omega
    · dsimp only
      omega
    · split at hresolve
      · cases hresolve
      · next hash registered hregister => exact ⟨hash, registered, hregister⟩

theorem Resolved.nil (text : TextRange) (linkage : Linkage) : Resolved text [] linkage linkage where
  inside _ hmem := absurd hmem List.not_mem_nil
  image := rfl
  functions _ _ := by simp
  calls := rfl

/-- One slot: the calls are the one in it and those behind it. -/
theorem Resolved.cons {call : RelativeCall} {calls : List RelativeCall} {hash : UInt32}
    {registered : FunctionTable}
    (hrest : Resolved text calls
      { image := call.write text before.image
        functions := registered
        calls := before.calls + 1 } after)
    (hinside : call.Inside text)
    (hregister : before.functions.register call.target.toNat = .ok (hash, registered)) :
    Resolved text (call :: calls) before after where
  inside := List.forall_mem_cons.2 ⟨hinside, hrest.inside⟩
  image := by rw [hrest.image, List.foldl_cons]
  functions hash slot := by
    obtain ⟨hnonneg, hlt⟩ := hinside
    have htarget : slot = call.target.toNat ↔ call.target = (slot : Int) := by omega
    rw [hrest.functions, FunctionTable.slot?_register_iff hregister, htarget]
    rw [List.exists_mem_cons_iff, or_assoc, and_or_left]
  calls := by rw [hrest.calls, List.length_cons, Nat.add_assoc, Nat.add_comm 1]

/-- Resolving calls slot by slot resolves the relative calls that there are at the start. -/
theorem resolved_of_resolveCallsFrom (h : resolveCallsFrom text pc before count = .ok after) :
    Resolved text (relativeCalls text before.image pc count) before after := by
  induction count generalizing pc before with
  | zero =>
    obtain rfl := Except.ok.inj h
    rw [relativeCalls_zero]
    exact Resolved.nil text before
  | succ count ih =>
    rw [resolveCallsFrom] at h
    obtain ⟨next, hcall, hrest⟩ := exists_of_bind_eq_ok h
    rw [relativeCalls_succ]
    cases hat : RelativeCall.at? text before.image pc with
    | none =>
      rw [resolveCall_of_none hat] at hcall
      obtain rfl := Except.ok.inj hcall
      rw [Option.toList_none, List.nil_append]
      exact ih hrest
    | some call =>
      obtain ⟨hinside, hash, registered, hregister⟩ := inside_of_resolveCall hat hcall
      rw [resolveCall_of_some hat hinside hregister] at hcall
      obtain rfl := Except.ok.inj hcall
      have hsame : relativeCalls text (call.write text before.image) (pc + 1) count =
          relativeCalls text before.image (pc + 1) count := by
        have hpc : call.pc = pc := RelativeCall.pc_of_at? hat
        rw [RelativeCall.write, hpc, relativeCalls_writeImmediate]
      have hlater := ih hrest
      dsimp only at hlater
      rw [hsame] at hlater
      rw [Option.toList_some, List.singleton_append]
      exact hlater.cons hinside hregister

/-- Resolving calls succeeds, or it ends at the first call that does not go to a slot of the
text. -/
theorem resolveCallsFrom_cases (hwithin : before.functions.Within text.slotCount)
    (hcount : text.slotCount ≤ UInt32.size) :
    (∃ after, resolveCallsFrom text pc before count = .ok after) ∨
      ∃ call ∈ relativeCalls text before.image pc count, ¬call.Inside text ∧
        (∀ other ∈ relativeCalls text before.image pc count,
          other.pc < call.pc → other.Inside text) ∧
        resolveCallsFrom text pc before count =
          .error (.callOutOfBounds call.pc call.target) := by
  induction count generalizing pc before with
  | zero => exact .inl ⟨before, rfl⟩
  | succ count ih =>
    rw [resolveCallsFrom, relativeCalls_succ]
    cases hat : RelativeCall.at? text before.image pc with
    | none =>
      rw [resolveCall_of_none hat, Option.toList_none, List.nil_append]
      exact ih hwithin
    | some first =>
      have hpc : first.pc = pc := RelativeCall.pc_of_at? hat
      rw [Option.toList_some, List.singleton_append]
      by_cases hinside : first.Inside text
      · have htarget : first.target.toNat < text.slotCount := by
          obtain ⟨hnonneg, hlt⟩ := hinside
          omega
        obtain ⟨registered, hregister⟩ := hwithin.exists_register hcount htarget
        rw [resolveCall_of_some hat hinside hregister]
        have hlater := @ih (pc + 1)
          { image := first.write text before.image
            functions := registered
            calls := before.calls + 1 } (hwithin.register htarget hregister)
        dsimp only at hlater
        rw [RelativeCall.write, hpc, relativeCalls_writeImmediate] at hlater
        rcases hlater with hresolved | ⟨call, hcall, houtside, hearlier, herror⟩
        · exact .inl (by rwa [RelativeCall.write, hpc])
        · refine .inr ⟨call, List.mem_cons_of_mem first hcall, houtside, fun other hother hlt => ?_,
            by rwa [RelativeCall.write, hpc]⟩
          rcases List.mem_cons.1 hother with rfl | hother
          · exact hinside
          · exact hearlier other hother hlt
      · refine .inr ⟨first, List.mem_cons_self, hinside, fun other hother hlt => ?_, ?_⟩
        · rcases List.mem_cons.1 hother with rfl | hother
          · exact absurd hlt (Nat.lt_irrefl _)
          · have hbehind := (mem_relativeCalls_iff.1 hother).1.1
            omega
        · rw [resolveCall_of_outside hat hinside]
          rfl

theorem resolveCalls_cases (hwithin : before.functions.Within text.slotCount)
    (hcount : text.slotCount ≤ UInt32.size) :
    (∃ after, before.resolveCalls text = .ok after) ∨
      ∃ call ∈ relativeCalls text before.image 0 text.slotCount, ¬call.Inside text ∧
        (∀ other ∈ relativeCalls text before.image 0 text.slotCount,
          other.pc < call.pc → other.Inside text) ∧
        before.resolveCalls text = .error (.callOutOfBounds call.pc call.target) :=
  resolveCallsFrom_cases hwithin hcount

/-- Calls that go to slots of the text are resolved, as their hashes do not collide. -/
theorem exists_resolveCallsFrom (hwithin : before.functions.Within text.slotCount)
    (hcount : text.slotCount ≤ UInt32.size)
    (hinside : ∀ call ∈ relativeCalls text before.image pc count, call.Inside text) :
    ∃ after, resolveCallsFrom text pc before count = .ok after := by
  rcases resolveCallsFrom_cases hwithin hcount with hresolved | ⟨call, hcall, houtside, -⟩
  · exact hresolved
  · exact absurd (hinside call hcall) houtside

end Linkage

-- ════════════════════════════════════════════════════════════════════════
-- The same calls in another image
-- ════════════════════════════════════════════════════════════════════════

namespace Linkage

variable {linkage : Linkage}

theorem resolved_of_resolveCalls (h : (ofImage image).resolveCalls text = .ok linkage) :
    Resolved text (relativeCalls text image 0 text.slotCount) (ofImage image) linkage := by
  rw [resolveCalls] at h
  have hresolved := resolved_of_resolveCallsFrom h
  exact hresolved

/-- The functions of an image that has been resolved are the targets of its relative calls. -/
theorem slot?_resolveCalls_iff (h : (ofImage image).resolveCalls text = .ok linkage)
    {hash : UInt32} {slot : Nat} :
    linkage.functions.slot? hash = some slot ↔
      hash = CallHash.ofSlot slot ∧
        ∃ call ∈ relativeCalls text image 0 text.slotCount, call.target = (slot : Int) := by
  rw [(resolved_of_resolveCalls h).functions, ofImage, FunctionTable.slot?_empty]
  exact or_iff_right (Option.some_ne_none slot).symm

/-- An image with the same calls in its text is resolved in the same way. -/
theorem exists_resolveCalls {other : TextRange} {image' : ByteArray}
    (hslots : other.slotCount = text.slotCount) (hcount : text.slotCount ≤ UInt32.size)
    (hcalls : relativeCalls other image' 0 text.slotCount =
      relativeCalls text image 0 text.slotCount)
    (h : (ofImage image).resolveCalls text = .ok linkage) :
    ∃ resolved, (ofImage image').resolveCalls other = .ok resolved ∧
      resolved.image =
        (relativeCalls text image 0 text.slotCount).foldl (RelativeCall.write other) image' ∧
      (∀ hash, resolved.functions.slot? hash = linkage.functions.slot? hash) ∧
      resolved.calls = linkage.calls := by
  have hresolved := resolved_of_resolveCalls h
  obtain ⟨resolved, hother⟩ : ∃ resolved, (ofImage image').resolveCalls other = .ok resolved := by
    have hwithin : (ofImage image').functions.Within other.slotCount :=
      FunctionTable.empty_within _
    have hinside : ∀ call ∈ relativeCalls other (ofImage image').image 0 other.slotCount,
        call.Inside other := by
      intro call hcall
      have hmem : call ∈ relativeCalls text image 0 text.slotCount := by
        rw [← hcalls, ← hslots]
        exact hcall
      rw [RelativeCall.Inside, hslots]
      exact hresolved.inside call hmem
    rw [resolveCalls]
    exact exists_resolveCallsFrom hwithin (by rwa [hslots]) hinside
  have hresolved' := resolved_of_resolveCalls hother
  rw [hslots, hcalls] at hresolved'
  refine ⟨resolved, hother, hresolved'.image, fun hash => ?_, ?_⟩
  · apply Option.ext
    intro slot
    rw [hresolved'.functions, hresolved.functions]
    rfl
  · rw [hresolved'.calls, hresolved.calls]
    rfl

/-- Writing the same calls keeps what two images agree in. -/
theorem agreeExcept_foldl_write {places : Nat → Prop} {image' : ByteArray} (text : TextRange)
    (hagree : Bytes.AgreeExcept places image' image) (calls : List RelativeCall) :
    Bytes.AgreeExcept places (calls.foldl (RelativeCall.write text) image')
      (calls.foldl (RelativeCall.write text) image) := by
  induction calls generalizing image image' with
  | nil => exact hagree
  | cons call calls ih =>
    have hnext : Bytes.AgreeExcept places (call.write text image') (call.write text image) :=
      (hagree.writeLE _).mono fun i hi => hi.1
    rw [List.foldl_cons, List.foldl_cons]
    exact ih hnext

/-- Resolving calls leaves the low halves of slots as they are. -/
theorem readLE_of_resolveCalls (h : (ofImage image).resolveCalls text = .ok linkage)
    (slot : Nat) :
    Bytes.readLE linkage.image (text.slotOffset slot) immediateOffset =
      Bytes.readLE image (text.slotOffset slot) immediateOffset := by
  rw [(resolved_of_resolveCalls h).image]
  exact TextRange.readLE_foldl_writeImmediate text image slot

section Surrounded

variable {front slots behind : ByteArray}

/-- A text is resolved in the same way wherever it stands. -/
theorem resolveCalls_surrounded (front behind : ByteArray)
    (hcount : TextRange.slotCount { start := 0, stop := slots.size } ≤ UInt32.size)
    (h : (ofImage slots).resolveCalls { start := 0, stop := slots.size } = .ok linkage) :
    ∃ resolved, (ofImage (front ++ slots ++ behind)).resolveCalls
        { start := front.size, stop := front.size + slots.size } = .ok resolved ∧
      resolved.image = front ++ linkage.image ++ behind ∧
      (∀ hash, resolved.functions.slot? hash = linkage.functions.slot? hash) ∧
      resolved.calls = linkage.calls := by
  have hslots : TextRange.slotCount { start := 0, stop := slots.size } = slots.size / slotSize :=
    rfl
  have hslots' : TextRange.slotCount { start := front.size, stop := front.size + slots.size } =
      slots.size / slotSize := by
    rw [TextRange.slotCount, TextRange.size, Nat.add_sub_cancel_left]
  have hsame : relativeCalls { start := front.size, stop := front.size + slots.size }
        (front ++ slots ++ behind) 0 (slots.size / slotSize) =
      relativeCalls { start := 0, stop := slots.size } slots 0 (slots.size / slotSize) := by
    refine relativeCalls_congr fun slot _ hlt => ?_
    refine congrArg Slot.callDistance?
      (TextRange.atOffset_surrounded front behind rfl rfl ?_)
    simp only [slotSize] at hlt ⊢
    omega
  obtain ⟨resolved, hresolve, himage, hfunctions, hcalls⟩ :=
    exists_resolveCalls hslots' hcount hsame h
  refine ⟨resolved, hresolve, ?_, hfunctions, hcalls⟩
  have himage' := (resolved_of_resolveCalls h).image
  rw [himage, himage']
  refine RelativeCall.foldl_write_surrounded front behind rfl rfl fun call hcall => ?_
  have hpc := (opcode_of_mem_relativeCalls hcall).1
  rwa [Nat.zero_add, hslots] at hpc

end Surrounded

end Linkage

namespace Program

/-- The program of a bare text is the text with its calls resolved. -/
theorem exists_linkage_of_ofText {bytes : ByteArray} {program : Program}
    (h : ofText bytes = .ok program) :
    (0 < bytes.size ∧ bytes.size % slotSize = 0) ∧
      ∃ linkage, (Linkage.ofImage bytes).resolveCalls { start := 0, stop := bytes.size } =
          .ok linkage ∧
        program =
          { image := linkage.image
            text := { start := 0, stop := bytes.size }
            entryPc := 0
            functions := linkage.functions
            sbfV2 := false } := by
  simp only [ofText] at h
  split at h
  · cases h
  · next hsize =>
    obtain ⟨hnonempty, haligned⟩ := not_or.1 hsize
    split at h
    · cases h
    · next linkage hlinkage =>
      exact ⟨⟨Nat.pos_of_ne_zero hnonempty, Decidable.not_not.1 haligned⟩, linkage, hlinkage,
        (Except.ok.inj h).symm⟩

theorem size_image_of_ofText {bytes : ByteArray} {program : Program}
    (h : ofText bytes = .ok program) : program.image.size = bytes.size := by
  obtain ⟨-, linkage, hlinkage, rfl⟩ := exists_linkage_of_ofText h
  exact (Linkage.resolveCalls_keeps hlinkage).1

/-- The program of a bare text has the same low halves of slots. -/
theorem readLE_image_of_ofText {bytes : ByteArray} {program : Program}
    (h : ofText bytes = .ok program) (slot : Nat) :
    Bytes.readLE program.image (slotSize * slot) immediateOffset =
      Bytes.readLE bytes (slotSize * slot) immediateOffset := by
  obtain ⟨-, linkage, hlinkage, rfl⟩ := exists_linkage_of_ofText h
  have hhalf := Linkage.readLE_of_resolveCalls hlinkage slot
  simp only [TextRange.slotOffset, Nat.zero_add] at hhalf
  exact hhalf

/-- A text of whole slots whose calls go to slots of it is a program. -/
theorem exists_ofText {bytes : ByteArray} (hnonempty : 0 < bytes.size)
    (haligned : bytes.size % slotSize = 0) (hcount : bytes.size / slotSize ≤ UInt32.size)
    (hinside : ∀ call ∈ relativeCalls { start := 0, stop := bytes.size } bytes 0
      (bytes.size / slotSize), call.Inside { start := 0, stop := bytes.size }) :
    ∃ program, ofText bytes = .ok program := by
  obtain ⟨linkage, hlinkage⟩ : ∃ linkage,
      (Linkage.ofImage bytes).resolveCalls { start := 0, stop := bytes.size } = .ok linkage :=
    Linkage.exists_resolveCallsFrom (FunctionTable.empty_within _) hcount hinside
  simp only [ofText]
  rw [if_neg (not_or.2 ⟨Nat.ne_of_gt hnonempty, not_not_intro haligned⟩), hlinkage]
  exact ⟨_, rfl⟩

section Surrounded

variable {program : Program} {front slots behind : ByteArray}
variable (himage : program.image = front ++ slots ++ behind)
variable (htext : program.text = { start := front.size, stop := front.size + slots.size })
include himage htext

theorem textBytes_of_surrounded : program.textBytes = slots := by
  rw [textBytes, himage, htext]
  exact (Bytes.holds_surrounded front slots behind).1.extract

theorem slot?_of_surrounded (pc : Nat) :
    program.slot? pc =
      if pc < slots.size / slotSize then some (Slot.atOffset slots (slotSize * pc)) else none := by
  have hcount : program.slotCount = slots.size / slotSize := by
    rw [slotCount, htext, TextRange.slotCount, TextRange.size, Nat.add_sub_cancel_left]
  rw [slot?, hcount, himage]
  by_cases hpc : pc < slots.size / slotSize
  · have hinside : slotSize * pc + slotSize ≤ slots.size := by
      simp only [slotSize] at hpc ⊢
      omega
    have hstart : program.text.start = front.size := by rw [htext]
    have hslot : Slot.atOffset (front ++ slots ++ behind) (program.text.slotOffset pc) =
        Slot.atOffset slots (TextRange.slotOffset { start := 0, stop := slots.size } pc) :=
      TextRange.atOffset_surrounded front behind hstart rfl hinside
    rw [if_pos hpc, if_pos hpc, hslot, TextRange.slotOffset, Nat.zero_add]
  · rw [if_neg hpc, if_neg hpc]

end Surrounded

end Program

end SbfMachine
