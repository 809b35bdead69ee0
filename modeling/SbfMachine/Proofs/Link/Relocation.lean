import SbfMachine.Link.Relocation
import SbfMachine.Proofs.Program.WellFormed

/-!
# What relocations do

A relocation that can be applied is of one of the kinds that there are, and what it does follows
from its kind. It writes inside the image, and only calls can enter a function, which is a slot of
the text.

## Main definitions

- `Resolves` — what a relocation does, kind by kind
- `NamesFunction` — which symbols are functions

## Main statements

- `resolves_of_resolve`, `Resolves.resolve_eq` — a relocation does that and nothing else
- `Resolves.patches_inside` — what is written lies inside the image
- `Resolves.within` — the functions are slots of the text
- `Linker.applyAll_keeps` — relocations keep the size of the image
-/

namespace SbfMachine.Link

open Elf

-- ════════════════════════════════════════════════════════════════════════
-- Relocations by kind
-- ════════════════════════════════════════════════════════════════════════

/-- What a relocation does, one rule for each kind and for each of the two places where an address
without a symbol can stand. -/
inductive Resolves (object : Object) (text : TextRange) (image : ByteArray)
    (functions : FunctionTable) (counts : RelocationCounts) (relocation : Relocation) :
    Resolution → Prop
  | ignored (hkind : RelocationKind.ofNumber? relocation.kind = some .ignored) :
      Resolves object text image functions counts relocation { patches := [], functions, counts }
  | abs64 {patches : List Patch}
      (hkind : RelocationKind.ofNumber? relocation.kind = some .abs64)
      (hpatches : resolveAbs64 object image relocation = .ok patches) :
      Resolves object text image functions counts relocation
        { patches, functions, counts := { counts with abs64 := counts.abs64 + 1 } }
  | relativeInText {patches : List Patch}
      (hkind : RelocationKind.ofNumber? relocation.kind = some .relative)
      (hplace : text.contains relocation.offset.toNat = true)
      (hpatches : resolveRelativeInText image relocation.offset.toNat = .ok patches) :
      Resolves object text image functions counts relocation
        { patches, functions, counts := { counts with relative := counts.relative + 1 } }
  | relativeInData {patches : List Patch}
      (hkind : RelocationKind.ofNumber? relocation.kind = some .relative)
      (hplace : ¬text.contains relocation.offset.toNat = true)
      (hpatches :
        resolveRelativeInData object.isSbfV2 image relocation.offset.toNat = .ok patches) :
      Resolves object text image functions counts relocation
        { patches, functions, counts := { counts with relative := counts.relative + 1 } }
  | call {symbol : Symbol} {name : String} {hash : UInt32} {registered : FunctionTable}
      {after : RelocationCounts} {patches : List Patch}
      (hkind : RelocationKind.ofNumber? relocation.kind = some .call)
      (hsymbol : object.symbol relocation.symbol = .ok symbol)
      (hname : object.symbolName symbol = .ok name)
      (htarget : resolveTarget text functions counts symbol name = .ok (hash, registered, after))
      (hpatches :
        fieldPatch image relocation.offset.toNat immediateOffset immediateSize hash.toUInt64 =
          .ok patches) :
      Resolves object text image functions counts relocation
        { patches, functions := registered, counts := after }

variable {object : Object} {text : TextRange} {image : ByteArray} {functions : FunctionTable}
  {counts : RelocationCounts} {relocation : Relocation} {resolution : Resolution}

theorem resolves_of_resolve
    (h : resolve object text image functions counts relocation = .ok resolution) :
    Resolves object text image functions counts relocation resolution := by
  unfold resolve at h
  dsimp only at h
  split at h
  · cases h
  · next hkind =>
    obtain rfl := Except.ok.inj h
    exact .ignored hkind
  · next hkind =>
    obtain ⟨patches, hpatches, h⟩ := exists_of_bind_eq_ok h
    obtain rfl := Except.ok.inj h
    exact .abs64 hkind hpatches
  · next hkind =>
    split at h
    · next hplace =>
      obtain ⟨patches, hpatches, h⟩ := exists_of_bind_eq_ok h
      obtain rfl := Except.ok.inj h
      exact .relativeInText hkind hplace hpatches
    · next hplace =>
      obtain ⟨patches, hpatches, h⟩ := exists_of_bind_eq_ok h
      obtain rfl := Except.ok.inj h
      exact .relativeInData hkind hplace hpatches
  · next hkind =>
    obtain ⟨symbol, hsymbol, h⟩ := exists_of_bind_eq_ok h
    obtain ⟨name, hname, h⟩ := exists_of_bind_eq_ok h
    obtain ⟨⟨hash, registered, after⟩, htarget, h⟩ := exists_of_bind_eq_ok h
    obtain ⟨patches, hpatches, h⟩ := exists_of_bind_eq_ok h
    obtain rfl := Except.ok.inj h
    exact .call hkind hsymbol hname htarget hpatches

/-- What a relocation does by its kind is what it does. -/
theorem Resolves.resolve_eq
    (h : Resolves object text image functions counts relocation resolution) :
    resolve object text image functions counts relocation = .ok resolution := by
  unfold resolve
  cases h with
  | ignored hkind => simp only [hkind, pure, Except.pure]
  | abs64 hkind hpatches => simp only [hkind, hpatches, bind, Except.bind, pure, Except.pure]
  | relativeInText hkind hplace hpatches =>
    simp only [hkind, hplace, if_true, hpatches, bind, Except.bind, pure, Except.pure]
  | relativeInData hkind hplace hpatches =>
    simp only [hkind, if_neg hplace, hpatches, bind, Except.bind, pure, Except.pure]
  | call hkind hsymbol hname htarget hpatches =>
    simp only [hkind, hsymbol, hname, htarget, hpatches, bind, Except.bind, pure, Except.pure]

-- ════════════════════════════════════════════════════════════════════════
-- Targets of calls
-- ════════════════════════════════════════════════════════════════════════

/-- The symbol stands for a function of the text, and not for a system call. -/
def NamesFunction (symbol : Symbol) : Prop :=
  symbol.kind = functionSymbolKind ∧ symbol.value.toNat ≠ 0

/-- The target of a call is a function of the text, which is registered and counted, or a system
call, which is only counted. -/
theorem resolveTarget_eq_ok {symbol : Symbol} {name : String} {hash : UInt32}
    {registered : FunctionTable} {after : RelocationCounts}
    (h : resolveTarget text functions counts symbol name = .ok (hash, registered, after)) :
    NamesFunction symbol ∧ text.contains symbol.value.toNat = true ∧
        functions.register ((symbol.value.toNat - text.start) / slotSize) =
          .ok (hash, registered) ∧
        after = { counts with functions := counts.functions + 1 } ∨
      ¬NamesFunction symbol ∧ hash = CallHash.ofName name ∧ registered = functions ∧
        after = { counts with syscalls := counts.syscalls + 1 } := by
  unfold resolveTarget at h
  dsimp only at h
  split at h
  · next hfunction =>
    split at h
    · next hinside =>
      split at h
      · cases h
      · next hregister =>
        simp only [Except.ok.injEq, Prod.mk.injEq] at h
        obtain ⟨rfl, rfl, rfl⟩ := h
        exact .inl ⟨hfunction, hinside, hregister, rfl⟩
    · cases h
  · next hsyscall =>
    simp only [Except.ok.injEq, Prod.mk.injEq] at h
    obtain ⟨rfl, rfl, rfl⟩ := h
    exact .inr ⟨hsyscall, rfl, rfl, rfl⟩

/-- The functions of a resolution are slots of the text. -/
theorem Resolves.within (haligned : text.size % slotSize = 0)
    (h : Resolves object text image functions counts relocation resolution)
    (hwithin : functions.Within text.slotCount) : resolution.functions.Within text.slotCount := by
  cases h with
  | ignored => exact hwithin
  | abs64 => exact hwithin
  | relativeInText => exact hwithin
  | relativeInData => exact hwithin
  | call hkind hsymbol hname htarget hpatches =>
    obtain ⟨-, hinside, hregister, -⟩ | ⟨-, -, rfl, -⟩ := resolveTarget_eq_ok htarget
    · exact hwithin.register (text.slot_lt_of_contains haligned hinside) hregister
    · exact hwithin

-- ════════════════════════════════════════════════════════════════════════
-- Patches
-- ════════════════════════════════════════════════════════════════════════

theorem wideImmediatePatches_inside {place : Nat} {address : UInt64} {patches : List Patch}
    (h : wideImmediatePatches image place address = .ok patches) :
    ∀ patch ∈ patches, patch.offset + patch.width ≤ image.size := by
  unfold wideImmediatePatches at h
  split at h
  · next hinside =>
    obtain rfl := Except.ok.inj h
    simp only [slotSize] at hinside
    simp only [List.forall_mem_cons, immediateOffset, secondImmediateOffset, immediateSize,
      slotSize]
    exact ⟨by omega, by omega, fun _ hmem => absurd hmem List.not_mem_nil⟩
  · cases h

theorem fieldPatch_inside {place field width : Nat} {value : UInt64} {patches : List Patch}
    (h : fieldPatch image place field width value = .ok patches) :
    ∀ patch ∈ patches, patch.offset + patch.width ≤ image.size := by
  unfold fieldPatch at h
  split at h
  · next hinside =>
    obtain rfl := Except.ok.inj h
    intro patch hmem
    obtain rfl := List.mem_singleton.1 hmem
    exact hinside
  · cases h

/-- What is written lies inside the image. -/
theorem Resolves.patches_inside
    (h : Resolves object text image functions counts relocation resolution) :
    ∀ patch ∈ resolution.patches, patch.offset + patch.width ≤ image.size := by
  cases h with
  | ignored => exact fun _ hmem => absurd hmem List.not_mem_nil
  | abs64 hkind hpatches =>
    obtain ⟨symbol, _, hpatches⟩ := exists_of_bind_eq_ok hpatches
    obtain ⟨addend, _, hpatches⟩ := exists_of_bind_eq_ok hpatches
    exact wideImmediatePatches_inside hpatches
  | relativeInText hkind hplace hpatches =>
    obtain ⟨low, _, hpatches⟩ := exists_of_bind_eq_ok hpatches
    obtain ⟨high, _, hpatches⟩ := exists_of_bind_eq_ok hpatches
    dsimp only at hpatches
    split at hpatches
    · cases hpatches
    · exact wideImmediatePatches_inside hpatches
  | relativeInData hkind hplace hpatches =>
    unfold resolveRelativeInData at hpatches
    split at hpatches
    all_goals
      obtain ⟨address, _, hpatches⟩ := exists_of_bind_eq_ok hpatches
      exact fieldPatch_inside hpatches
  | call hkind hsymbol hname htarget hpatches => exact fieldPatch_inside hpatches

theorem size_foldl_write (image : ByteArray) (patches : List Patch) :
    (patches.foldl Patch.write image).size = image.size := by
  induction patches generalizing image with
  | nil => rfl
  | cons patch patches ih => rw [List.foldl_cons, ih, Patch.write, Bytes.size_writeLE]

-- ════════════════════════════════════════════════════════════════════════
-- All relocations
-- ════════════════════════════════════════════════════════════════════════

/-- What applying a relocation comes to. -/
theorem Linker.apply_eq_ok {linker linked : Linker}
    (h : linker.apply object text relocation = .ok linked) :
    ∃ resolution,
      Resolves object text linker.image linker.functions linker.counts relocation resolution ∧
      linked =
        { image := resolution.patches.foldl Patch.write linker.image
          functions := resolution.functions
          counts := resolution.counts } := by
  unfold Linker.apply at h
  split at h
  · cases h
  · next resolution hresolve =>
    exact ⟨resolution, resolves_of_resolve hresolve, (Except.ok.inj h).symm⟩

theorem Linker.apply_of_resolves {linker : Linker}
    (h : Resolves object text linker.image linker.functions linker.counts relocation resolution) :
    linker.apply object text relocation =
      .ok
        { image := resolution.patches.foldl Patch.write linker.image
          functions := resolution.functions
          counts := resolution.counts } := by
  unfold Linker.apply
  rw [h.resolve_eq]

theorem Linker.exists_apply_of_resolves {linker : Linker}
    (h : Resolves object text linker.image linker.functions linker.counts relocation resolution) :
    ∃ after, linker.apply object text relocation = .ok after ∧
      after.image = resolution.patches.foldl Patch.write linker.image :=
  ⟨_, Linker.apply_of_resolves h, rfl⟩

/-- Applying relocations keeps the size of the image and enters only functions of the text. -/
theorem Linker.applyAll_keeps (haligned : text.size % slotSize = 0) {linker linked : Linker}
    {relocations : List Relocation} (hwithin : linker.functions.Within text.slotCount)
    (h : linker.applyAll object text relocations = .ok linked) :
    linked.image.size = linker.image.size ∧ linked.functions.Within text.slotCount := by
  refine foldlM_ok_induction
    (fun after => after.image.size = linker.image.size ∧ after.functions.Within text.slotCount)
    h ⟨rfl, hwithin⟩ ?_
  rintro before relocation after - ⟨hsize, hbefore⟩ hstep
  obtain ⟨resolution, hresolves, rfl⟩ := apply_eq_ok hstep
  refine ⟨?_, hresolves.within haligned hbefore⟩
  rw [← hsize]
  exact size_foldl_write _ _

end SbfMachine.Link
