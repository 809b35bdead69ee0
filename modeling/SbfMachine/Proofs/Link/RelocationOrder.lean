import Mathlib.Data.List.Perm.Basic
import SbfMachine.Proofs.Link.Blueprint.CallLinks
import SbfMachine.Proofs.Link.Collisions

/-!
# Relocations in any order

A relocation reads nothing of the image but the fields that it writes to. So relocations whose
fields do not meet do not notice one another: each of them does what it would do as the only one,
and together they do the same in every order. This holds for relocations of any kinds, for any
image, and for any text whose slots have hashes of their own. Only which error is reported, if there
are several, is a matter of order.

## Main definitions

- `Apart` — relocations whose fields do not meet
- `resolveAlone`, `alone` — what a relocation does as the only one
- `Linker.Same` — linkers that cannot be told apart

## Main statements

- `resolve_congr` — a relocation depends on its own fields only
- `Linker.exists_applyAll_iff` — relocations can be applied if each of them can
- `Linker.image_applyAll`, `Linker.counts_applyAll` — what they do together
- `Linker.applyAll_perm` — the order makes no difference
-/

namespace SbfMachine.Link

open Bytes (AgreeExcept InWindow)
open Elf

/-- The relocations have no field in common. -/
def Apart (text : TextRange) (first second : Relocation) : Prop :=
  ∀ i, Stores text first i → ¬Stores text second i

/-- The fields of a relocation lie in the two slots from its place on. -/
theorem Stores.bounds {text : TextRange} {relocation : Relocation} {i : Nat}
    (h : Stores text relocation i) :
    relocation.offset.toNat ≤ i ∧ i < relocation.offset.toNat + 2 * slotSize := by
  unfold Stores at h
  simp only [InImmediates, InWindow, immediateOffset, secondImmediateOffset, immediateSize,
    addressSize, slotSize] at h ⊢
  split at h
  · omega
  · split at h <;> omega
  · omega
  · exact h.elim
  · exact h.elim

instance (place i : Nat) : Decidable (InImmediates place i) :=
  inferInstanceAs (Decidable (_ ∨ _))

instance (text : TextRange) (relocation : Relocation) : DecidablePred (Stores text relocation) :=
  fun i =>
    match hkind : RelocationKind.ofNumber? relocation.kind with
    | some .abs64 =>
      decidable_of_iff (InImmediates relocation.offset.toNat i) (by simp only [Stores, hkind])
    | some .relative =>
      if hplace : text.contains relocation.offset.toNat then
        decidable_of_iff (InImmediates relocation.offset.toNat i)
          (by simp only [Stores, hkind, if_pos hplace])
      else
        decidable_of_iff (InWindow relocation.offset.toNat addressSize i)
          (by simp only [Stores, hkind, if_neg hplace])
    | some .call =>
      decidable_of_iff (InWindow (relocation.offset.toNat + immediateOffset) immediateSize i)
        (by simp only [Stores, hkind])
    | some .ignored => .isFalse (by simp only [Stores, hkind, not_false_eq_true])
    | none => .isFalse (by simp only [Stores, hkind, not_false_eq_true])

theorem apart_iff {text : TextRange} {first second : Relocation} :
    Apart text first second ↔
      ∀ j < 2 * slotSize, Stores text first (first.offset.toNat + j) →
        ¬Stores text second (first.offset.toNat + j) := by
  refine ⟨fun h j _ => h _, fun h i hfirst => ?_⟩
  obtain ⟨hle, hlt⟩ := hfirst.bounds
  obtain ⟨j, rfl⟩ := Nat.exists_eq_add_of_le hle
  exact h j (by omega) hfirst

instance (text : TextRange) (first second : Relocation) : Decidable (Apart text first second) :=
  decidable_of_iff' _ apart_iff

theorem Apart.symm {text : TextRange} {first second : Relocation} (h : Apart text first second) :
    Apart text second first :=
  fun i hsecond hfirst => h i hfirst hsecond

-- ════════════════════════════════════════════════════════════════════════
-- What a relocation depends on
-- ════════════════════════════════════════════════════════════════════════

section Images

variable {object : Object} {text : TextRange} {image other : ByteArray} {places : Nat → Prop}
  {relocation : Relocation} {place : Nat}

theorem fieldAt_congr {field width : Nat} (h : AgreeExcept places other image)
    (hfield : ∀ i, InWindow (place + field) width i → ¬places i) :
    fieldAt other place field width = fieldAt image place field width := by
  rw [fieldAt, fieldAt, h.size_eq, h.readLE_eq hfield]

theorem wideImmediatePatches_congr (hsize : other.size = image.size) (address : UInt64) :
    wideImmediatePatches other place address = wideImmediatePatches image place address := by
  rw [wideImmediatePatches, wideImmediatePatches, hsize]

theorem fieldPatch_congr (hsize : other.size = image.size) (field width : Nat) (value : UInt64) :
    fieldPatch other place field width value = fieldPatch image place field width value := by
  rw [fieldPatch, fieldPatch, hsize]

theorem resolveAbs64_congr (h : AgreeExcept places other image)
    (hfields : ∀ i, InImmediates relocation.offset.toNat i → ¬places i) :
    resolveAbs64 object other relocation = resolveAbs64 object image relocation := by
  simp only [resolveAbs64, fieldAt_congr h fun i hi => hfields i (.inl hi),
    wideImmediatePatches_congr h.size_eq]

theorem resolveRelativeInText_congr (h : AgreeExcept places other image)
    (hfields : ∀ i, InImmediates place i → ¬places i) :
    resolveRelativeInText other place = resolveRelativeInText image place := by
  simp only [resolveRelativeInText, fieldAt_congr h fun i hi => hfields i (.inl hi),
    fieldAt_congr h fun i hi => hfields i (.inr hi), wideImmediatePatches_congr h.size_eq]

theorem resolveRelativeInData_congr (sbfV2 : Bool) (h : AgreeExcept places other image)
    (hfields : ∀ i, InWindow place addressSize i → ¬places i) :
    resolveRelativeInData sbfV2 other place = resolveRelativeInData sbfV2 image place := by
  have hwhole : fieldAt other place 0 addressSize = fieldAt image place 0 addressSize :=
    fieldAt_congr h hfields
  -- Before version 2 only the second half of the field is read.
  have hhalf : fieldAt other place immediateOffset immediateSize =
      fieldAt image place immediateOffset immediateSize := by
    refine fieldAt_congr h fun i hi => hfields i ?_
    simp only [InWindow, immediateOffset, immediateSize, addressSize] at hi ⊢
    omega
  simp only [resolveRelativeInData, hwhole, hhalf, fieldPatch_congr h.size_eq]

/-- What a relocation does depends on the bytes of its own fields only. -/
theorem resolve_congr (functions : FunctionTable) (counts : RelocationCounts)
    (h : AgreeExcept (fun i => ¬Stores text relocation i) other image) :
    resolve object text other functions counts relocation =
      resolve object text image functions counts relocation := by
  unfold resolve
  dsimp only
  cases hkind : RelocationKind.ofNumber? relocation.kind with
  | none => rfl
  | some kind =>
    cases kind with
    | ignored => rfl
    | abs64 =>
      have hfields : ∀ i, InImmediates relocation.offset.toNat i → ¬¬Stores text relocation i := by
        intro i hi
        simpa only [Stores, hkind, not_not] using hi
      rw [resolveAbs64_congr h hfields]
    | relative =>
      by_cases hplace : text.contains relocation.offset.toNat = true
      · have hfields : ∀ i, InImmediates relocation.offset.toNat i →
            ¬¬Stores text relocation i := by
          intro i hi
          simpa only [Stores, hkind, if_pos hplace, not_not] using hi
        simp only [if_pos hplace, resolveRelativeInText_congr h hfields]
      · have hfields : ∀ i, InWindow relocation.offset.toNat addressSize i →
            ¬¬Stores text relocation i := by
          intro i hi
          simpa only [Stores, hkind, if_neg hplace, not_not] using hi
        simp only [if_neg hplace, resolveRelativeInData_congr object.isSbfV2 h hfields]
    | call => simp only [fieldPatch_congr h.size_eq]

end Images

-- ════════════════════════════════════════════════════════════════════════
-- Relocations by themselves
-- ════════════════════════════════════════════════════════════════════════

/-- No relocations at all. -/
def noCounts : RelocationCounts where
  calls := 0
  abs64 := 0
  relative := 0
  functions := 0
  syscalls := 0

/-- The numbers of two groups of relocations together. -/
def addCounts (a b : RelocationCounts) : RelocationCounts where
  calls := a.calls + b.calls
  abs64 := a.abs64 + b.abs64
  relative := a.relative + b.relative
  functions := a.functions + b.functions
  syscalls := a.syscalls + b.syscalls

theorem addCounts_right_comm (a b c : RelocationCounts) :
    addCounts (addCounts a b) c = addCounts (addCounts a c) b := by
  simp only [addCounts, Nat.add_right_comm]

/-- What a relocation does if no function has been entered before. -/
def resolveAlone (object : Object) (text : TextRange) (image : ByteArray)
    (relocation : Relocation) : Except LoadError Resolution :=
  resolve object text image .empty noCounts relocation

/-- What a relocation contributes as the only one; nothing if it cannot be applied. -/
def alone (object : Object) (text : TextRange) (image : ByteArray) (relocation : Relocation) :
    Resolution :=
  match resolveAlone object text image relocation with
  | .ok resolution => resolution
  | .error _ => { patches := [], functions := .empty, counts := noCounts }

theorem alone_of_resolveAlone {object : Object} {text : TextRange} {image : ByteArray}
    {relocation : Relocation} {resolution : Resolution}
    (h : resolveAlone object text image relocation = .ok resolution) :
    alone object text image relocation = resolution := by
  rw [alone, h]

/-- By itself, too, a relocation writes into its fields only. -/
theorem stores_of_covered_alone {object : Object} {text : TextRange} {image : ByteArray}
    {relocation : Relocation} {i : Nat}
    (h : Covered (alone object text image relocation).patches i) : Stores text relocation i := by
  unfold alone at h
  split at h
  · next hresolve => exact (resolves_of_resolve hresolve).stores_of_covered h
  · exact absurd h not_covered_nil

section Tables

variable {object : Object} {text : TextRange} {image : ByteArray} {count : Nat}
  {functions table : FunctionTable} {counts before : RelocationCounts} {relocation : Relocation}
  {resolution : Resolution} {linker linked : Linker} {relocations : List Relocation}

/-- The slot of an address of a text comes at most one behind the last whole slot. -/
theorem slot_le_of_contains {address : Nat} (h : text.contains address = true) :
    (address - text.start) / slotSize ≤ text.slotCount := by
  simp only [TextRange.contains, Bool.and_eq_true, decide_eq_true_eq] at h
  refine Nat.div_le_div_right ?_
  rw [TextRange.size]
  omega

variable (hcount : count ≤ UInt32.size) (htext : text.slotCount < count)
include hcount htext

/-- The hash of a call does not depend on the functions that have been entered before. -/
theorem exists_resolveTarget_of_within (htable : table.Within count) (before : RelocationCounts)
    {symbol : Symbol} {name : String} {hash : UInt32} {registered : FunctionTable}
    {after : RelocationCounts}
    (h : resolveTarget text functions counts symbol name = .ok (hash, registered, after)) :
    ∃ entered total, resolveTarget text table before symbol name = .ok (hash, entered, total) ∧
      entered.Within count ∧
        ∃ own, after = addCounts counts own ∧ total = addCounts before own := by
  obtain ⟨hfunction, hinside, hregister, rfl⟩ | ⟨hsyscall, rfl, rfl, rfl⟩ :=
    resolveTarget_eq_ok h
  · have hslot := Nat.lt_of_le_of_lt (slot_le_of_contains hinside) htext
    obtain ⟨entered, hentered⟩ := htable.exists_register hcount hslot
    obtain ⟨rfl, _⟩ := FunctionTable.slot?_of_register hregister
    refine ⟨entered, { before with functions := before.functions + 1 }, ?_,
      htable.register hslot hentered, { noCounts with functions := 1 }, rfl, rfl⟩
    have hsymbol : symbol.kind = functionSymbolKind ∧ symbol.value.toNat ≠ 0 := hfunction
    simp only [resolveTarget, if_pos hsymbol, if_pos hinside, hentered]
  · have hsymbol : ¬(symbol.kind = functionSymbolKind ∧ symbol.value.toNat ≠ 0) := hsyscall
    exact ⟨table, { before with syscalls := before.syscalls + 1 },
      by rw [resolveTarget, if_neg hsymbol], htable, { noCounts with syscalls := 1 }, rfl, rfl⟩

/-- A relocation that can be applied after some others can be applied after any others, and does the
same. -/
theorem Resolves.exists_resolves_of_within (htable : table.Within count)
    (before : RelocationCounts)
    (h : Resolves object text image functions counts relocation resolution) :
    ∃ other, Resolves object text image table before relocation other ∧
      other.patches = resolution.patches ∧ other.functions.Within count ∧
        ∃ own, resolution.counts = addCounts counts own ∧
          other.counts = addCounts before own := by
  cases h with
  | ignored hkind =>
    exact ⟨_, .ignored hkind, rfl, htable, noCounts, rfl, rfl⟩
  | abs64 hkind hpatches =>
    exact ⟨_, .abs64 hkind hpatches, rfl, htable, { noCounts with abs64 := 1 }, rfl, rfl⟩
  | relativeInText hkind hplace hpatches =>
    exact ⟨_, .relativeInText hkind hplace hpatches, rfl, htable,
      { noCounts with relative := 1 }, rfl, rfl⟩
  | relativeInData hkind hplace hpatches =>
    exact ⟨_, .relativeInData hkind hplace hpatches, rfl, htable,
      { noCounts with relative := 1 }, rfl, rfl⟩
  | call hkind hsymbol hname htarget hpatches =>
    obtain ⟨entered, total, htarget', hentered, howns⟩ :=
      exists_resolveTarget_of_within hcount htext htable before htarget
    exact ⟨_, .call hkind hsymbol hname htarget' hpatches, rfl, hentered, howns⟩

/-- A relocation can be applied if it could be applied as the only one. -/
theorem Linker.exists_apply_iff (hwithin : linker.functions.Within count) :
    (∃ after, linker.apply object text relocation = .ok after) ↔
      ∃ resolution, resolveAlone object text linker.image relocation = .ok resolution := by
  constructor
  · rintro ⟨after, hafter⟩
    obtain ⟨resolution, hresolves, _⟩ := apply_eq_ok hafter
    obtain ⟨own, hown, _⟩ := hresolves.exists_resolves_of_within hcount htext
      (FunctionTable.empty_within count) noCounts
    exact ⟨own, hown.resolve_eq⟩
  · rintro ⟨resolution, hresolve⟩
    obtain ⟨own, hown, _⟩ := (resolves_of_resolve hresolve).exists_resolves_of_within hcount htext
      hwithin linker.counts
    exact ⟨_, apply_of_resolves hown⟩

/-- A relocation does what it would do as the only one. -/
theorem Linker.apply_alone (hwithin : linker.functions.Within count)
    (h : linker.apply object text relocation = .ok linked) :
    linked.image =
        (alone object text linker.image relocation).patches.foldl Patch.write linker.image ∧
      linked.counts =
        addCounts linker.counts (alone object text linker.image relocation).counts ∧
      linked.functions.Within count ∧
      AgreeExcept (Stores text relocation) linked.image linker.image := by
  obtain ⟨resolution, hresolves, rfl⟩ := apply_eq_ok h
  obtain ⟨own, hown, hpatches, _, howns⟩ := hresolves.exists_resolves_of_within hcount htext
    (FunctionTable.empty_within count) noCounts
  obtain ⟨again, hagain, _, hentered, _⟩ := hresolves.exists_resolves_of_within hcount htext
    hwithin linker.counts
  obtain rfl := Except.ok.inj (hresolves.resolve_eq.symm.trans hagain.resolve_eq)
  obtain ⟨number, hcounts, hnumber⟩ := howns
  have hnumber' : own.counts = number := by
    rw [hnumber]
    simp only [addCounts, noCounts, Nat.zero_add]
  rw [alone_of_resolveAlone hown.resolve_eq, hpatches, hnumber']
  refine ⟨rfl, hcounts, hentered, ?_⟩
  exact (agreeExcept_foldl_write _ _).mono fun i => hresolves.stores_of_covered

-- ════════════════════════════════════════════════════════════════════════
-- Relocations together
-- ════════════════════════════════════════════════════════════════════════

omit hcount htext in
/-- A relocation does not notice another one whose fields are elsewhere. -/
theorem resolveAlone_of_apart {first second : Relocation} {other : ByteArray}
    (hapart : Apart text first second) (h : AgreeExcept (Stores text first) other image) :
    resolveAlone object text other second = resolveAlone object text image second :=
  resolve_congr .empty noCounts (h.mono hapart)

/-- Relocations whose fields do not meet can be applied if each of them can. -/
theorem Linker.exists_applyAll_iff (hwithin : linker.functions.Within count)
    (hapart : relocations.Pairwise (Apart text)) :
    (∃ linked, linker.applyAll object text relocations = .ok linked) ↔
      ∀ relocation ∈ relocations, ∃ resolution,
        resolveAlone object text linker.image relocation = .ok resolution := by
  induction relocations generalizing linker with
  | nil => exact iff_of_true ⟨linker, rfl⟩ fun _ hmem => absurd hmem List.not_mem_nil
  | cons first rest ih =>
    obtain ⟨hfirst, hrest⟩ := List.pairwise_cons.1 hapart
    rw [List.forall_mem_cons, ← exists_apply_iff hcount htext hwithin, applyAll, List.foldlM_cons]
    constructor
    · rintro ⟨linked, hlinked⟩
      obtain ⟨after, hafter, hlinked⟩ := exists_of_bind_eq_ok hlinked
      obtain ⟨_, _, hentered, hagree⟩ := apply_alone hcount htext hwithin hafter
      refine ⟨⟨after, hafter⟩, fun relocation hmem => ?_⟩
      rw [← resolveAlone_of_apart (hfirst relocation hmem) hagree]
      exact (ih hentered hrest).1 ⟨linked, hlinked⟩ relocation hmem
    · rintro ⟨⟨after, hafter⟩, hlater⟩
      obtain ⟨_, _, hentered, hagree⟩ := apply_alone hcount htext hwithin hafter
      obtain ⟨linked, hlinked⟩ := (ih hentered hrest).2 fun relocation hmem => by
        rw [resolveAlone_of_apart (hfirst relocation hmem) hagree]
        exact hlater relocation hmem
      exact ⟨linked, by rw [hafter]; exact hlinked⟩

/-- Together, relocations whose fields do not meet do what each of them does as the only one. -/
theorem Linker.applyAll_alone (hwithin : linker.functions.Within count)
    (hapart : relocations.Pairwise (Apart text))
    (h : linker.applyAll object text relocations = .ok linked) :
    linked.image =
        (relocations.flatMap fun relocation =>
          (alone object text linker.image relocation).patches).foldl Patch.write linker.image ∧
      linked.counts =
        relocations.foldl (fun counts relocation =>
          addCounts counts (alone object text linker.image relocation).counts) linker.counts := by
  induction relocations generalizing linker with
  | nil =>
    obtain rfl := Except.ok.inj h
    exact ⟨rfl, rfl⟩
  | cons first rest ih =>
    obtain ⟨hfirst, hrest⟩ := List.pairwise_cons.1 hapart
    rw [applyAll, List.foldlM_cons] at h
    obtain ⟨after, hafter, hlinked⟩ := exists_of_bind_eq_ok h
    obtain ⟨himage, hcounts, hentered, hagree⟩ := apply_alone hcount htext hwithin hafter
    have hsame : ∀ relocation ∈ rest, alone object text after.image relocation =
        alone object text linker.image relocation := fun relocation hmem => by
      rw [alone, alone, resolveAlone_of_apart (hfirst relocation hmem) hagree]
    obtain ⟨himage', hcounts'⟩ := ih hentered hrest hlinked
    constructor
    · rw [himage', himage, List.flatMap_cons, List.foldl_append, ← himage]
      congr 1
      exact List.flatMap_congr fun relocation hmem => by rw [hsame relocation hmem]
    · rw [hcounts', hcounts, List.foldl_cons]
      exact List.foldl_ext _ _ _ fun counts relocation hmem => by rw [hsame relocation hmem]

end Tables

-- ════════════════════════════════════════════════════════════════════════
-- The order of relocations
-- ════════════════════════════════════════════════════════════════════════

/-- The linkers have the same image, the same functions and the same numbers. -/
structure Linker.Same (first second : Linker) : Prop where
  image : first.image = second.image
  functions : ∀ hash, first.functions.slot? hash = second.functions.slot? hash
  counts : first.counts = second.counts

section Order

variable {object : Object} {text : TextRange} {linker : Linker}
  {relocations permuted : List Relocation}

/-- Relocations whose fields do not meet can be applied in any order, and they do the same in every
order. -/
theorem Linker.applyAll_perm (hsize : text.size ≤ maxFileSize)
    (hwithin : linker.functions.Within text.slotCount)
    (hapart : relocations.Pairwise (Apart text)) (hperm : permuted.Perm relocations) :
    ((∃ linked, linker.applyAll object text permuted = .ok linked) ↔
        ∃ linked, linker.applyAll object text relocations = .ok linked) ∧
      ∀ first second, linker.applyAll object text permuted = .ok first →
        linker.applyAll object text relocations = .ok second → first.Same second := by
  have hcount : text.slotCount + 1 ≤ UInt32.size := by
    simp only [TextRange.slotCount, slotSize, maxFileSize, UInt32.size] at hsize ⊢
    omega
  have htext : text.slotCount < text.slotCount + 1 := Nat.lt_succ_self _
  have hbelow : linker.functions.Within (text.slotCount + 1) := fun hash slot hslot =>
    ⟨(hwithin hash slot hslot).1, Nat.lt_succ_of_lt (hwithin hash slot hslot).2⟩
  have hapart' : permuted.Pairwise (Apart text) :=
    (hperm.pairwise_iff fun h => h.symm).2 hapart
  refine ⟨?_, fun first second hfirst hsecond => ⟨?_, fun hash => ?_, ?_⟩⟩
  · rw [exists_applyAll_iff hcount htext hbelow hapart',
      exists_applyAll_iff hcount htext hbelow hapart]
    exact forall_congr' fun relocation => by rw [hperm.mem_iff]
  · rw [(applyAll_alone hcount htext hbelow hapart' hfirst).1,
      (applyAll_alone hcount htext hbelow hapart hsecond).1]
    exact foldl_write_perm (fun _ _ => stores_of_covered_alone) hapart hperm linker.image
  · refine Option.ext fun slot => ?_
    rw [slot?_applyAll_iff hfirst, slot?_applyAll_iff hsecond]
    simp only [hperm.mem_iff]
  · rw [(applyAll_alone hcount htext hbelow hapart' hfirst).2,
      (applyAll_alone hcount htext hbelow hapart hsecond).2]
    have hcomm : RightCommutative fun counts relocation =>
        addCounts counts (alone object text linker.image relocation).counts :=
      ⟨fun counts _ _ => addCounts_right_comm counts _ _⟩
    exact hperm.foldl_eq linker.counts

end Order

/-- A file with a relocation of each kind: two addresses in the text, one in the constants, and a
call of the last slot. -/
def mixedPlan : Blueprint where
  text :=
    encodeText
      [.new 0x18 1 0 0 0, .new 0 0 0 0 0, .new 0x18 2 0 0 4, .new 0 0 0 0 0, .new 0x85 0 0 0 (-1),
       .new 0x95 0 0 0 0]
  rodata := Bytes.zeros 24
  entryPc := 0
  sbfV2 := false
  symbols := [{ name := "table", target := .data 16 }, { name := "done", target := .function 5 }]
  relocations := [.textRelative 0 8, .dataRelative 8 0, .abs64 2 1, .call 4 2]
  segments := []

/-- Its image, before the relocations. -/
def mixedStart : Linker where
  image := mixedPlan.image
  functions := .empty
  counts := noCounts

theorem exists_apply_mixedPlan :
    ∃ after, mixedStart.apply mixedPlan.object mixedPlan.textRange
      (mixedPlan.relocationRecord (.call 4 2)) = .ok after := by
  have hbuild : mixedPlan.Buildable := by
    refine ⟨rfl, by decide +kernel, by decide +kernel, ?_⟩
    rw [Blueprint.size_build rfl]
    decide +kernel
  let link : CallLink := { pc := 4, name := "done", target := some 5 }
  have hvalid : link.Valid mixedPlan.textRange.slotCount := by decide +kernel
  have hplan : link.addition.Numbered mixedPlan.symbols (.call 4 2) := .named rfl rfl
  obtain ⟨after, hafter, _⟩ := CallLink.exists_apply mixedStart hbuild hplan hvalid
    (FunctionTable.empty_within _) rfl
  exact ⟨after, hafter⟩

/-- From the last relocation to the first, they do the same as from the first to the last. -/
theorem Linker.applyAll_perm_mixedPlan :
    mixedPlan.object.relocations.Pairwise (Apart mixedPlan.textRange) ∧
      ∃ first second,
        mixedStart.applyAll mixedPlan.object mixedPlan.textRange
            mixedPlan.object.relocations.reverse = .ok first ∧
          mixedStart.applyAll mixedPlan.object mixedPlan.textRange
            mixedPlan.object.relocations = .ok second ∧
          first.Same second := by
  have hapart : mixedPlan.object.relocations.Pairwise (Apart mixedPlan.textRange) := by
    decide +kernel
  have hsize : mixedPlan.textRange.size ≤ maxFileSize := by decide +kernel
  have hcount : mixedPlan.textRange.slotCount + 1 ≤ UInt32.size := by decide +kernel
  have hwithin : ∀ count, mixedStart.functions.Within count := FunctionTable.empty_within
  obtain ⟨second, hsecond⟩ : ∃ second, mixedStart.applyAll mixedPlan.object mixedPlan.textRange
      mixedPlan.object.relocations = .ok second := by
    have hlast := (exists_apply_iff hcount (Nat.lt_succ_self _) (hwithin _)).1
      exists_apply_mixedPlan
    have hothers : ∀ plan ∈ [RelocationPlan.textRelative 0 8, .dataRelative 8 0, .abs64 2 1],
        (resolveAlone mixedPlan.object mixedPlan.textRange mixedPlan.image
          (mixedPlan.relocationRecord plan)).isOk = true := by
      decide +kernel
    refine (exists_applyAll_iff hcount (Nat.lt_succ_self _) (hwithin _) hapart).2 ?_
    intro relocation hmem
    obtain ⟨plan, hplan, rfl⟩ := List.mem_map.1 hmem
    rcases List.mem_append.1 (show plan ∈ [_, _, _] ++ [_] from hplan) with hfirst | hcall
    · exact exists_eq_ok_of_isOk (hothers plan hfirst)
    · obtain rfl := List.mem_singleton.1 hcall
      exact hlast
  obtain ⟨hboth, hsame⟩ := @applyAll_perm mixedPlan.object _ _ _ _ hsize (hwithin _) hapart
    (List.reverse_perm _)
  obtain ⟨first, hfirst⟩ := hboth.2 ⟨second, hsecond⟩
  exact ⟨hapart, first, second, hfirst, hsecond, hsame first second hfirst hsecond⟩

end SbfMachine.Link
