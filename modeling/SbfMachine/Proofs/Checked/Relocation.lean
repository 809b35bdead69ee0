import SbfMachine.Proofs.Checked.Metadata
import SbfMachine.Proofs.Link.Relocation

/-!
# Checked relocations

Relocations are applied with operations that may trap, and do not trap: what is read and written
lies inside the image, only small addresses are moved, and only addresses of the text are measured
from its start.

## Main definitions

- `Checked.resolve` — what a relocation does
- `Checked.apply`, `Checked.applyAll` — doing it
- `Checked.CountedBy` — bounds on the numbers of relocations

## Main statements

- `Checked.resolve_eq` — finding out what a relocation does does not trap
- `Checked.applyAll_eq` — applying relocations does not trap
-/

namespace SbfMachine

open Elf Link

namespace Checked

-- ════════════════════════════════════════════════════════════════════════
-- Addresses
-- ════════════════════════════════════════════════════════════════════════

def fieldAt (image : ByteArray) (place field width : Nat) : Checked UInt64 :=
  if place + field + width ≤ image.size then do
    let bytes ← slice image (place + field) (place + field + width)
    let raw ← copied width bytes
    return Bytes.readLE raw 0 width
  else throw (.relocationOutOfBounds place)

def toProgramAddress (address : UInt64) : Checked UInt64 :=
  if address < programBase then do
    let moved ← add address.toNat programBase.toNat
    return UInt64.ofNat moved
  else return address

def resolveAbs64 (object : Object) (image : ByteArray) (relocation : Relocation) :
    Checked (List Patch) := do
  let place := relocation.offset.toNat
  let symbol ← lift (object.symbol relocation.symbol)
  let addend ← fieldAt image place immediateOffset immediateSize
  let address ← toProgramAddress (addCutOff symbol.value addend)
  lift (wideImmediatePatches image place address)

def resolveRelativeInText (image : ByteArray) (place : Nat) : Checked (List Patch) := do
  let low ← fieldAt image place immediateOffset immediateSize
  let high ← fieldAt image place secondImmediateOffset immediateSize
  let address := low + 0x100000000 * high
  if address = 0 then throw (.missingAddend place)
  else
    let address ← toProgramAddress address
    lift (wideImmediatePatches image place address)

def resolveRelativeInData (sbfV2 : Bool) (image : ByteArray) (place : Nat) :
    Checked (List Patch) := do
  if sbfV2 then
    let stored ← fieldAt image place 0 addressSize
    let address ← toProgramAddress stored
    lift (fieldPatch image place 0 addressSize address)
  else
    let stored ← fieldAt image place immediateOffset immediateSize
    lift (fieldPatch image place 0 addressSize (addCutOff stored programBase))

theorem fieldAt_eq (image : ByteArray) (place field width : Nat) :
    fieldAt image place field width = lift (Link.fieldAt image place field width) := by
  unfold fieldAt Link.fieldAt
  split
  · next hinside =>
    have hsize := size_extract hinside
    rw [slice_eq (by omega) hinside, pure_bind, copied_eq hsize, pure_bind]
    refine congrArg pure (Bytes.readLE_congr fun i hi => ?_)
    rw [Nat.zero_add, Bytes.byteAt_extract, if_pos (by omega)]
  · rfl

theorem toProgramAddress_eq (address : UInt64) :
    toProgramAddress address = pure (Link.toProgramAddress address) := by
  unfold toProgramAddress Link.toProgramAddress
  split
  · next hsmall =>
    rw [UInt64.lt_iff_toNat_lt] at hsmall
    have hbase : programBase.toNat = 0x100000000 := rfl
    rw [add_eq (by simp only [UInt64.size]; omega), pure_bind, UInt64.ofNat_add, UInt64.ofNat_toNat,
      UInt64.ofNat_toNat]
  · rfl

theorem resolveAbs64_eq (object : Object) (image : ByteArray) (relocation : Relocation) :
    resolveAbs64 object image relocation = lift (Link.resolveAbs64 object image relocation) := by
  refine bind_eq_lift rfl fun symbol _ => bind_eq_lift (fieldAt_eq ..) fun addend _ => ?_
  rw [toProgramAddress_eq, pure_bind]

theorem resolveRelativeInText_eq (image : ByteArray) (place : Nat) :
    resolveRelativeInText image place = lift (Link.resolveRelativeInText image place) := by
  refine bind_eq_lift (fieldAt_eq ..) fun low _ => bind_eq_lift (fieldAt_eq ..) fun high _ => ?_
  simp only [toProgramAddress_eq, pure_bind]
  split <;> rfl

/-- A number of four bytes is moved into the program region as it is. -/
theorem addCutOff_of_fieldAt {image : ByteArray} {place : Nat} {stored : UInt64}
    (h : Link.fieldAt image place immediateOffset immediateSize = .ok stored) :
    addCutOff stored programBase = stored + programBase := by
  unfold Link.fieldAt at h
  split at h
  · obtain rfl := Except.ok.inj h
    have hsmall := (Bytes.toNat_readLE image (place + immediateOffset)
      (show immediateSize ≤ 8 by decide)).2
    have hbase : programBase.toNat = 0x100000000 := rfl
    simp only [immediateSize] at hsmall ⊢
    rw [addCutOff, Nat.min_eq_left (by simp only [maxWord, UInt64.size]; omega), UInt64.ofNat_add,
      UInt64.ofNat_toNat, UInt64.ofNat_toNat]
  · cases h

theorem resolveRelativeInData_eq (sbfV2 : Bool) (image : ByteArray) (place : Nat) :
    resolveRelativeInData sbfV2 image place =
      lift (Link.resolveRelativeInData sbfV2 image place) := by
  unfold resolveRelativeInData Link.resolveRelativeInData
  cases sbfV2 with
  | true =>
    simp only [if_true, fieldAt_eq, toProgramAddress_eq, pure_bind]
    cases Link.fieldAt image place 0 addressSize <;> rfl
  | false =>
    simp only [Bool.false_eq_true, if_false, fieldAt_eq]
    cases hstored : Link.fieldAt image place immediateOffset immediateSize with
    | error => rfl
    | ok stored =>
      rw [lift_ok, pure_bind, addCutOff_of_fieldAt hstored]
      rfl

-- ════════════════════════════════════════════════════════════════════════
-- Resolutions
-- ════════════════════════════════════════════════════════════════════════

def symbolName (object : Object) (symbol : Symbol) : Checked String :=
  match object.symbolNames with
  | none => throw (.invalidString symbol.name.toNat)
  | some names => do
    let table ← element object.sections names.val
    readString object.file table.header symbol.name symbolNameLimit

def resolveTarget (text : TextRange) (functions : FunctionTable) (counts : RelocationCounts)
    (symbol : Symbol) (name : String) :
    Checked (UInt32 × FunctionTable × RelocationCounts) :=
  let value := symbol.value.toNat
  if symbol.kind = functionSymbolKind ∧ value ≠ 0 then
    if text.contains value then do
      let count ← add counts.functions 1
      let distance ← sub value text.start
      let (hash, functions) ← lift (functions.register (distance / slotSize))
      return (hash, functions, { counts with functions := count })
    else throw (.symbolOutOfBounds name value)
  else do
    let count ← add counts.syscalls 1
    return (CallHash.ofName name, functions, { counts with syscalls := count })

def resolve (object : Object) (text : TextRange) (image : ByteArray) (functions : FunctionTable)
    (counts : RelocationCounts) (relocation : Relocation) : Checked Resolution := do
  let place := relocation.offset.toNat
  match RelocationKind.ofNumber? relocation.kind with
  | none => throw (.unsupportedRelocation relocation.kind.toNat)
  | some .ignored => return { patches := [], functions, counts }
  | some .abs64 =>
    let patches ← resolveAbs64 object image relocation
    let count ← add counts.abs64 1
    return { patches, functions, counts := { counts with abs64 := count } }
  | some .relative =>
    let patches ←
      if text.contains place then resolveRelativeInText image place
      else resolveRelativeInData object.isSbfV2 image place
    let count ← add counts.relative 1
    return { patches, functions, counts := { counts with relative := count } }
  | some .call =>
    let symbol ← lift (object.symbol relocation.symbol)
    let name ← symbolName object symbol
    let (hash, functions, counts) ← resolveTarget text functions counts symbol name
    let patches ← lift (fieldPatch image place immediateOffset immediateSize hash.toUInt64)
    return { patches, functions, counts }

/-- No kind of relocation has been counted more than `bound` times. -/
structure CountedBy (bound : Nat) (counts : RelocationCounts) : Prop where
  abs64 : counts.abs64 ≤ bound
  relative : counts.relative ≤ bound
  functions : counts.functions ≤ bound
  syscalls : counts.syscalls ≤ bound

theorem CountedBy.mono {bound larger : Nat} {counts : RelocationCounts}
    (h : CountedBy bound counts) (hle : bound ≤ larger) : CountedBy larger counts :=
  ⟨Nat.le_trans h.abs64 hle, Nat.le_trans h.relative hle, Nat.le_trans h.functions hle,
    Nat.le_trans h.syscalls hle⟩

theorem symbolName_eq (object : Object) (symbol : Symbol) :
    symbolName object symbol = lift (object.symbolName symbol) := by
  unfold symbolName Object.symbolName
  cases object.symbolNames with
  | none => rfl
  | some names =>
    dsimp only
    rw [element_eq names.isLt, pure_bind, readString_eq]
    rfl

section Resolve

variable {object : Object} {text : TextRange} {image : ByteArray} {functions : FunctionTable}
  {counts : RelocationCounts} {bound : Nat} (hcounts : CountedBy bound counts)
  (hbound : bound + 1 < UInt64.size)
include hcounts hbound

theorem resolveTarget_eq (symbol : Symbol) (name : String) :
    resolveTarget text functions counts symbol name =
      lift (Link.resolveTarget text functions counts symbol name) := by
  have hfunctions := hcounts.functions
  have hsyscalls := hcounts.syscalls
  unfold resolveTarget Link.resolveTarget
  dsimp only
  split
  · split
    · next hinside =>
      rw [TextRange.contains, Bool.and_eq_true, decide_eq_true_eq] at hinside
      rw [add_eq (by omega), pure_bind, sub_eq hinside.1, pure_bind]
      cases functions.register ((symbol.value.toNat - text.start) / slotSize) <;> rfl
    · rfl
  · rw [add_eq (by omega), pure_bind]
    rfl

/-- Finding out what a relocation does does not trap. -/
theorem resolve_eq (relocation : Relocation) :
    resolve object text image functions counts relocation =
      lift (Link.resolve object text image functions counts relocation) := by
  have habs64 := hcounts.abs64
  have hrelative := hcounts.relative
  unfold resolve Link.resolve
  dsimp only
  cases RelocationKind.ofNumber? relocation.kind with
  | none => rfl
  | some kind =>
    cases kind with
    | ignored => rfl
    | abs64 =>
      refine bind_eq_lift (resolveAbs64_eq ..) fun patches _ => ?_
      rw [add_eq (by omega), pure_bind]
      rfl
    | relative =>
      dsimp only
      split
      · refine bind_eq_lift (resolveRelativeInText_eq ..) fun patches _ => ?_
        rw [add_eq (by omega), pure_bind]
        rfl
      · refine bind_eq_lift (resolveRelativeInData_eq ..) fun patches _ => ?_
        rw [add_eq (by omega), pure_bind]
        rfl
    | call =>
      refine bind_eq_lift rfl fun symbol _ => bind_eq_lift (symbolName_eq ..) fun name _ => ?_
      refine bind_eq_lift (resolveTarget_eq hcounts hbound symbol name) fun target _ => ?_
      exact bind_eq_lift rfl fun patches _ => rfl

omit hbound in
/-- A relocation is counted at most once. -/
theorem countedBy_of_resolves {relocation : Relocation} {resolution : Resolution}
    (h : Resolves object text image functions counts relocation resolution) :
    CountedBy (bound + 1) resolution.counts := by
  have hlarger := hcounts.mono (Nat.le_succ bound)
  cases h with
  | ignored => exact hlarger
  | abs64 => exact { hlarger with abs64 := Nat.succ_le_succ hcounts.abs64 }
  | relativeInText => exact { hlarger with relative := Nat.succ_le_succ hcounts.relative }
  | relativeInData => exact { hlarger with relative := Nat.succ_le_succ hcounts.relative }
  | call hkind hsymbol hname htarget hpatches =>
    obtain ⟨-, -, -, rfl⟩ | ⟨-, -, -, rfl⟩ := resolveTarget_eq_ok htarget
    · exact { hlarger with functions := Nat.succ_le_succ hcounts.functions }
    · exact { hlarger with syscalls := Nat.succ_le_succ hcounts.syscalls }

end Resolve

-- ════════════════════════════════════════════════════════════════════════
-- Patches
-- ════════════════════════════════════════════════════════════════════════

/-- Writes a number into the image, where there has to be room for it. -/
def writePatch (image : ByteArray) (patch : Patch) : Checked ByteArray :=
  replace image patch.offset (patch.offset + patch.width) (Bytes.encodeLE patch.value patch.width)

def apply (object : Object) (text : TextRange) (linker : Linker) (relocation : Relocation) :
    Checked Linker := do
  let resolution ← resolve object text linker.image linker.functions linker.counts relocation
  let image ← resolution.patches.foldlM writePatch linker.image
  return { image, functions := resolution.functions, counts := resolution.counts }

def applyAll (object : Object) (text : TextRange) (linker : Linker)
    (relocations : List Relocation) : Checked Linker :=
  relocations.foldlM (apply object text) linker

theorem writePatches_eq {image : ByteArray} {patches : List Patch}
    (hinside : ∀ patch ∈ patches, patch.offset + patch.width ≤ image.size) :
    patches.foldlM writePatch image = pure (patches.foldl Patch.write image) := by
  refine foldlM_eq (fun before => before.size = image.size) (fun before patch hmem hsize => ?_)
    (fun before patch hmem hsize => ?_) rfl
  · have hpatch := hinside patch hmem
    rw [writePatch, Patch.write, Bytes.writeLE_eq_overwrite]
    refine replace_eq (Nat.le_add_right _ _) (by rwa [hsize]) ?_
    rw [Bytes.size_encodeLE, Nat.add_sub_cancel_left]
  · rw [Patch.write, Bytes.size_writeLE, hsize]

theorem apply_eq {object : Object} {text : TextRange} {linker : Linker} {bound : Nat}
    (hcounts : CountedBy bound linker.counts) (hbound : bound + 1 < UInt64.size)
    (relocation : Relocation) :
    apply object text linker relocation = lift (linker.apply object text relocation) := by
  rw [apply, resolve_eq hcounts hbound, Linker.apply]
  cases hresolve :
      Link.resolve object text linker.image linker.functions linker.counts relocation with
  | error => rfl
  | ok resolution =>
    have hinside := (resolves_of_resolve hresolve).patches_inside
    rw [lift_ok, pure_bind, writePatches_eq hinside, pure_bind]
    rfl

/-- Applying relocations does not trap. -/
theorem applyAll_eq {object : Object} {text : TextRange} {linker : Linker} {bound : Nat}
    {relocations : List Relocation} (hcounts : CountedBy bound linker.counts)
    (hbound : bound + relocations.length < UInt64.size) :
    applyAll object text linker relocations = lift (linker.applyAll object text relocations) := by
  -- Whatever has been counted and what is still to come are at most the bound together.
  refine foldlM_eq_lift
    (fun linker rest => ∃ count, CountedBy count linker.counts ∧ count + rest.length < UInt64.size)
    ?_ ?_ ⟨bound, hcounts, hbound⟩
  · rintro before relocation rest ⟨count, hcount, hsize⟩
    rw [List.length_cons] at hsize
    exact apply_eq hcount (by omega) relocation
  · rintro before relocation rest after ⟨count, hcount, hsize⟩ hafter
    rw [List.length_cons] at hsize
    obtain ⟨resolution, hresolves, rfl⟩ := Linker.apply_eq_ok hafter
    exact ⟨count + 1, countedBy_of_resolves hcount hresolves, by omega⟩

end Checked

end SbfMachine
