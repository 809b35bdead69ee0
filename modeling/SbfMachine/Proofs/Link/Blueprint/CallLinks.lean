import Mathlib.Data.List.Induction
import SbfMachine.Proofs.Link.Blueprint.Additions
import SbfMachine.Proofs.Link.Relocation
import SbfMachine.Proofs.Program.Calls

/-!
# Files with relocated calls

A file can be written from a text, constants and relocations of calls. Loading it gives the program
of the bare text, except that each relocated call names its target by the hash of a system call or
of a function, and that these functions are entered, too. Resolving the relative calls comes first
and relocations are applied in order, so the last relocation of a call is the one that counts.

## Main definitions

- `CallLink` — a call and what it is to be linked with
- `Blueprint.ofCalls` — the file with linked calls
- `CallsLinked` — how the loaded program relates to that of the bare text

## Main statements

- `CallLink.exists_apply` — applying one relocation
- `CallLink.exists_applyAll` — applying all of them
- `load_ofCalls` — the file is loaded, and as what
-/

namespace SbfMachine.Link

open Elf
open Blueprint (textOffset)
open Bytes (Holds)

/-- A call that is linked: slot `pc` calls the function `name` at slot `target`, or the system call
`name` if there is no target. -/
structure CallLink where
  pc : Nat
  name : String
  target : Option Nat
  deriving DecidableEq

namespace CallLink

/-- The number that the call names its target by. -/
def hash (link : CallLink) : UInt32 :=
  match link.target with
  | none => CallHash.ofName link.name
  | some slot => CallHash.ofSlot slot

def symbol (link : CallLink) : SymbolPlan where
  name := link.name
  target :=
    match link.target with
    | none => .undefined
    | some slot => .function slot

def addition (link : CallLink) : Addition where
  symbol? := some link.symbol
  relocation := .call link.pc

/-- Makes the call name its target. -/
def write (text : TextRange) (image : ByteArray) (link : CallLink) : ByteArray :=
  text.writeImmediate image link.pc link.hash

def count (counts : RelocationCounts) (link : CallLink) : RelocationCounts :=
  match link.target with
  | none => { counts with syscalls := counts.syscalls + 1 }
  | some _ => { counts with functions := counts.functions + 1 }

/-- A slot of a text when its calls are linked: the last link of the slot is the one that counts. -/
def relink (links : List CallLink) (pc : Nat) (slot : Slot) : Slot :=
  match (links.filter (·.pc = pc)).getLast? with
  | none => slot
  | some link => slot.withImm link.hash

/-- The call and its target are slots of a text of `count` slots, and the name can be read back. -/
structure Valid (count : Nat) (link : CallLink) : Prop where
  pc_lt : link.pc < count
  target_lt : ∀ slot ∈ link.target, slot < count
  nulFree : NulFree link.name
  short : link.name.utf8ByteSize < symbolNameLimit

instance (count : Nat) (link : CallLink) : Decidable (link.Valid count) :=
  decidable_of_iff
    (link.pc < count ∧ (∀ slot ∈ link.target, slot < count) ∧ NulFree link.name ∧
      link.name.utf8ByteSize < symbolNameLimit)
    ⟨fun ⟨hpc, htarget, hnul, hshort⟩ => ⟨hpc, htarget, hnul, hshort⟩,
      fun ⟨hpc, htarget, hnul, hshort⟩ => ⟨hpc, htarget, hnul, hshort⟩⟩

end CallLink

namespace Blueprint

/-- Adds the relocation of a call. -/
def withCall (blueprint : Blueprint) (link : CallLink) : Blueprint :=
  match link.target with
  | none => blueprint.withSyscall link.pc link.name
  | some slot => blueprint.withFunction link.pc link.name slot

/-- The file with a text, constants and linked calls. -/
def ofCalls (text rodata : ByteArray) (entryPc : Nat) (sbfV2 : Bool) (links : List CallLink) :
    Blueprint :=
  links.foldl withCall (ofParts text rodata entryPc sbfV2)

theorem withCall_eq_add (blueprint : Blueprint) (link : CallLink) :
    blueprint.withCall link = blueprint.add link.addition := by
  obtain ⟨pc, name, target⟩ := link
  cases target <;> rfl

end Blueprint

namespace CallLink

variable {blueprint : Blueprint} {link : CallLink}

-- ════════════════════════════════════════════════════════════════════════
-- What linking calls does
-- ════════════════════════════════════════════════════════════════════════

/-- The calls have been linked. -/
structure Applied (text : TextRange) (links : List CallLink) (before after : Linker) : Prop where
  image : after.image = links.foldl (write text) before.image
  functions : ∀ hash slot, after.functions.slot? hash = some slot ↔
    before.functions.slot? hash = some slot ∨
      hash = CallHash.ofSlot slot ∧ ∃ link ∈ links, link.target = some slot
  counts : after.counts = links.foldl count before.counts

theorem Applied.nil (text : TextRange) (linker : Linker) : Applied text [] linker linker where
  image := rfl
  functions _ _ := by simp
  counts := rfl

theorem Applied.cons {text : TextRange} {links : List CallLink} {before next after : Linker}
    (hfirst : Applied text [link] before next) (hrest : Applied text links next after) :
    Applied text (link :: links) before after where
  image := by rw [hrest.image, hfirst.image, List.foldl_cons, List.foldl_cons, List.foldl_nil]
  functions hash slot := by
    rw [hrest.functions, hfirst.functions, List.exists_mem_cons_iff, List.exists_mem_cons_iff,
      or_assoc, ← and_or_left]
    simp only [List.not_mem_nil, false_and, exists_false, or_false]
  counts := by rw [hrest.counts, hfirst.counts, List.foldl_cons, List.foldl_cons, List.foldl_nil]

theorem foldl_count (links : List CallLink) (counts : RelocationCounts) :
    links.foldl count counts =
      { counts with
        functions := counts.functions + links.countP (·.target.isSome)
        syscalls := counts.syscalls + links.countP (·.target.isNone) } := by
  induction links generalizing counts with
  | nil => rfl
  | cons link links ih =>
    rw [List.foldl_cons, ih, List.countP_cons, List.countP_cons, count]
    cases link.target <;> simp [Nat.add_assoc, Nat.add_comm 1]

theorem size_foldl_write (text : TextRange) (image : ByteArray) (links : List CallLink) :
    (links.foldl (write text) image).size = image.size :=
  Bytes.size_foldl (fun _ _ => TextRange.size_writeImmediate ..) links image

/-- The last link of a slot is the one that counts. -/
theorem relink_concat (links : List CallLink) (link : CallLink) (pc : Nat) (slot : Slot) :
    relink (links ++ [link]) pc slot =
      if pc = link.pc then slot.withImm link.hash else relink links pc slot := by
  by_cases hpc : pc = link.pc
  · have hsame : decide (link.pc = pc) = true := decide_eq_true hpc.symm
    rw [if_pos hpc, relink, List.filter_append, List.filter_cons, if_pos hsame,
      List.filter_nil, List.getLast?_concat]
  · have hother : ¬decide (link.pc = pc) = true := fun h => hpc (of_decide_eq_true h).symm
    rw [if_neg hpc, relink, List.filter_append, List.filter_cons, if_neg hother,
      List.filter_nil, List.append_nil, relink]

theorem withImm_relink (links : List CallLink) (pc : Nat) (slot : Slot) (imm : UInt32) :
    (relink links pc slot).withImm imm = slot.withImm imm := by
  unfold relink
  split <;> rfl

/-- Linking slot by slot: the other fields of a slot stay as they are. -/
theorem atOffset_foldl_write {text : TextRange} {image : ByteArray} {links : List CallLink}
    (hinside : ∀ link ∈ links, text.slotOffset link.pc + slotSize ≤ image.size) (pc : Nat) :
    Slot.atOffset (links.foldl (write text) image) (text.slotOffset pc) =
      relink links pc (Slot.atOffset image (text.slotOffset pc)) := by
  -- The last link is the one that counts, so the induction takes links away at the end.
  induction links using List.reverseRecOn with
  | nil => rfl
  | append_singleton links link ih =>
    have hearlier := ih fun other hother => hinside other (List.mem_append_left _ hother)
    have hsize := size_foldl_write text image links
    have hlast : text.slotOffset link.pc + slotSize ≤ (links.foldl (write text) image).size := by
      rw [hsize]
      exact hinside link (List.mem_append_right _ (List.mem_singleton_self link))
    rw [List.foldl_append, List.foldl_cons, List.foldl_nil, write,
      TextRange.atOffset_writeImmediate link.hash hlast, hearlier, withImm_relink, relink_concat]

-- ════════════════════════════════════════════════════════════════════════
-- One relocation
-- ════════════════════════════════════════════════════════════════════════

/-- The target of a system call is its name. -/
theorem resolveTarget_of_syscall {functions : FunctionTable} (hnone : link.target = none)
    (counts : RelocationCounts) (name : Nat) :
    resolveTarget blueprint.textRange functions counts
        (blueprint.symbolRecord link.symbol name) link.name =
      .ok (link.hash, functions, link.count counts) := by
  obtain ⟨pc, label, target⟩ := link
  obtain rfl : target = none := hnone
  have hkind : (blueprint.symbolRecord (symbol ⟨pc, label, none⟩) name).kind ≠
      functionSymbolKind := by
    have hzero : ((0x10 + 0 : UInt8) % 16) ≠ functionSymbolKind := by decide
    exact hzero
  unfold resolveTarget
  simp only [hkind, false_and, if_false]
  rfl

/-- The target of a function is the slot that its symbol has the address of. -/
theorem resolveTarget_of_function {functions registered : FunctionTable} {slot : Nat}
    (h : blueprint.Buildable) (hsome : link.target = some slot)
    (hslot : slot < blueprint.textRange.slotCount)
    (hregister : functions.register slot = .ok (CallHash.ofSlot slot, registered))
    (counts : RelocationCounts) (name : Nat) :
    resolveTarget blueprint.textRange functions counts
        (blueprint.symbolRecord link.symbol name) link.name =
      .ok (link.hash, registered, link.count counts) := by
  obtain ⟨pc, label, target⟩ := link
  obtain rfl : target = some slot := hsome
  obtain ⟨⟩ := h.placed
  have hslots := blueprint.slotCount_textRange
  have hplace : textOffset + slotSize * slot < textOffset + blueprint.text.size := by
    simp only [slotSize] at hslots ⊢
    omega
  have hkind : (blueprint.symbolRecord (symbol ⟨pc, label, some slot⟩) name).kind =
      functionSymbolKind := by
    have htwo : (0x10 + functionSymbolKind) % 16 = functionSymbolKind := by decide
    exact htwo
  have hsymbol : (blueprint.symbolRecord (symbol ⟨pc, label, some slot⟩) name).value =
      UInt64.ofNat (textOffset + slotSize * slot) := rfl
  have hvalue : (UInt64.ofNat (textOffset + slotSize * slot)).toNat =
      textOffset + slotSize * slot := Blueprint.toNat_ofNat (by omega)
  have hnonzero : textOffset + slotSize * slot ≠ 0 := by omega
  have hcontains : blueprint.textRange.contains (textOffset + slotSize * slot) = true := by
    rw [TextRange.contains, Blueprint.textRange, Bool.and_eq_true, decide_eq_true_eq,
      decide_eq_true_eq]
    exact ⟨Nat.le_add_right _ _, hplace⟩
  have htarget : (textOffset + slotSize * slot - blueprint.textRange.start) / slotSize = slot := by
    rw [Blueprint.textRange, Nat.add_sub_cancel_left, Nat.mul_div_cancel_left _ (by decide)]
  unfold resolveTarget
  simp only [hkind, hsymbol, hvalue, hnonzero, hcontains, htarget, hregister, ne_eq,
    not_false_eq_true, and_self, if_true]
  rfl

/-- The target of a call is resolved: a function is entered, a system call only named. -/
theorem exists_resolveTarget {functions : FunctionTable} (h : blueprint.Buildable)
    (hvalid : link.Valid blueprint.textRange.slotCount)
    (hwithin : functions.Within blueprint.textRange.slotCount) (counts : RelocationCounts)
    (name : Nat) :
    ∃ registered, resolveTarget blueprint.textRange functions counts
        (blueprint.symbolRecord link.symbol name) link.name =
          .ok (link.hash, registered, link.count counts) ∧
      registered.Within blueprint.textRange.slotCount ∧
      ∀ hash slot, registered.slot? hash = some slot ↔
        functions.slot? hash = some slot ∨
          hash = CallHash.ofSlot slot ∧ link.target = some slot := by
  cases htarget : link.target with
  | none =>
    refine ⟨functions, resolveTarget_of_syscall htarget counts name, hwithin,
      fun hash slot => ?_⟩
    simp only [reduceCtorEq, and_false, or_false]
  | some slot =>
    have hslot := hvalid.target_lt slot htarget
    have hcount := h.slotCount_le
    obtain ⟨registered, hregister⟩ := hwithin.exists_register hcount hslot
    refine ⟨registered, resolveTarget_of_function h htarget hslot hregister counts name,
      hwithin.register hslot hregister, fun hash other => ?_⟩
    rw [FunctionTable.slot?_register_iff hregister, Option.some.injEq, eq_comm (a := slot)]

/-- Applying the relocation of a call links it. -/
theorem exists_apply {plan : RelocationPlan} (before : Linker) (h : blueprint.Buildable)
    (hplan : link.addition.Numbered blueprint.symbols plan)
    (hvalid : link.Valid blueprint.textRange.slotCount)
    (hwithin : before.functions.Within blueprint.textRange.slotCount)
    (hsize : before.image.size = blueprint.image.size) :
    ∃ after, before.apply blueprint.object blueprint.textRange (blueprint.relocationRecord plan) =
        .ok after ∧
      after.functions.Within blueprint.textRange.slotCount ∧
      Applied blueprint.textRange [link] before after := by
  cases hplan with
  | plain hnone => cases hnone
  | named hsome hi =>
    rename_i symbol i
    obtain rfl := Option.some.inj hsome
    have hslots := blueprint.slotCount_textRange
    have hpc := hvalid.pc_lt
    have himage := blueprint.size_image
    have hlength := h.symbols_length_le
    have hnumber := (List.getElem?_eq_some_iff.1 hi).1
    obtain ⟨name, hsymbol, hname⟩ := h.symbol_object hi
    have hlabel : blueprint.object.symbolName (blueprint.symbolRecord link.symbol name) =
        .ok link.name := hname hvalid.nulFree hvalid.short
    obtain ⟨registered, htarget, hregistered, hfunctions⟩ :=
      exists_resolveTarget h hvalid hwithin before.counts name
    have hoffset : textOffset + slotSize * link.pc ≤ 67108864 := by
      obtain ⟨⟩ := h.placed
      simp only [slotSize] at hslots ⊢
      omega
    obtain ⟨hplace, hkind, hindex⟩ :=
      Blueprint.relocationAt_spec RelocationKind.call.number hoffset
        (show i + 1 ≤ 67108864 by omega)
    have hresolves : Resolves blueprint.object blueprint.textRange before.image before.functions
        before.counts (blueprint.relocationRecord (link.addition.relocation (i + 1)))
        { patches := [{ offset := textOffset + slotSize * link.pc + immediateOffset
                        width := immediateSize, value := link.hash.toUInt64 }]
          functions := registered
          counts := link.count before.counts } := by
      have hfits : textOffset + slotSize * link.pc + immediateOffset + immediateSize ≤
          before.image.size := by
        simp only [slotSize, immediateOffset, immediateSize] at hslots ⊢
        omega
      rw [addition, Blueprint.relocationRecord]
      refine .call ?_ (by rw [hindex, hsymbol]) hlabel htarget ?_
      · rw [hkind]
        decide
      · rw [hplace, fieldPatch, if_pos hfits]
    refine ⟨_, Linker.apply_of_resolves hresolves, hregistered, ?_, fun hash slot => ?_, rfl⟩
    · dsimp only
      rw [List.foldl_cons, List.foldl_nil, List.foldl_cons, List.foldl_nil, write, Patch.write,
        TextRange.writeImmediate, TextRange.slotOffset, Blueprint.textRange]
    · simp only [hfunctions, List.mem_singleton, exists_eq_left]

/-- Applying all relocations links all calls. -/
theorem exists_applyAll {links : List CallLink} {plans : List RelocationPlan} (before : Linker)
    (h : blueprint.Buildable)
    (hplans : List.Forall₂ (Addition.Numbered blueprint.symbols) (links.map addition) plans)
    (hvalid : ∀ link ∈ links, link.Valid blueprint.textRange.slotCount)
    (hwithin : before.functions.Within blueprint.textRange.slotCount)
    (hsize : before.image.size = blueprint.image.size) :
    ∃ after, before.applyAll blueprint.object blueprint.textRange
        (plans.map blueprint.relocationRecord) = .ok after ∧
      Applied blueprint.textRange links before after := by
  induction links generalizing plans before with
  | nil =>
    cases hplans
    exact ⟨before, rfl, .nil _ _⟩
  | cons link links ih =>
    rw [List.map_cons] at hplans
    obtain ⟨plan, rest, hplan, hrest, rfl⟩ := List.forall₂_cons_left_iff.1 hplans
    obtain ⟨hfirst, hothers⟩ := List.forall_mem_cons.1 hvalid
    obtain ⟨next, hnext, hwithin', hone⟩ := exists_apply before h hplan hfirst hwithin hsize
    have hsize' : next.image.size = blueprint.image.size := by
      rw [hone.image, List.foldl_cons, List.foldl_nil, write, TextRange.size_writeImmediate, hsize]
    obtain ⟨after, hafter, hall⟩ := ih next hrest hothers hwithin' hsize'
    refine ⟨after, ?_, hone.cons hall⟩
    rw [List.map_cons, Linker.applyAll, List.foldlM_cons, hnext]
    exact hafter

end CallLink

-- ════════════════════════════════════════════════════════════════════════
-- The file
-- ════════════════════════════════════════════════════════════════════════

/-- The program that was loaded is that of the bare text with linked calls, and with constants. -/
structure CallsLinked (text rodata : ByteArray) (entryPc : Nat) (sbfV2 : Bool)
    (links : List CallLink) (plain : Program) (loaded : Loaded) : Prop where
  textBytes : loaded.program.textBytes = links.foldl (CallLink.write plain.text) plain.textBytes
  slots : ∀ pc, loaded.program.slot? pc = (plain.slot? pc).map (CallLink.relink links pc)
  rodata : Holds loaded.program.image
    (Blueprint.ofCalls text rodata entryPc sbfV2 links).rodataOffset rodata
  entryPc : loaded.program.entryPc = entryPc
  sbfV2 : loaded.program.sbfV2 = sbfV2
  functions : ∀ hash slot, loaded.program.functions.slot? hash = some slot ↔
    plain.functions.slot? hash = some slot ∨
      hash = CallHash.ofSlot slot ∧ ∃ link ∈ links, link.target = some slot
  counts : loaded.counts =
    { calls := (relativeCalls plain.text text 0 plain.slotCount).length
      abs64 := 0
      relative := 0
      functions := links.countP (·.target.isSome)
      syscalls := links.countP (·.target.isNone) }

namespace Blueprint

variable {links : List CallLink}

/-- A name that always has the same target belongs to one symbol. -/
theorem agree_of_names (hnames : ∀ link ∈ links, ∀ other ∈ links,
      link.name = other.name → link.target = other.target) :
    ∀ addition ∈ links.map CallLink.addition, ∀ s, addition.symbol? = some s →
      ∀ other ∈ links.map CallLink.addition, ∀ t, other.symbol? = some t →
        Addition.Agree s t := by
  intro addition haddition s hs other hother t ht hname
  obtain ⟨link, hlink, rfl⟩ := List.mem_map.1 haddition
  obtain ⟨link', hlink', rfl⟩ := List.mem_map.1 hother
  obtain rfl := Option.some.inj hs
  obtain rfl := Option.some.inj ht
  have htarget := hnames link hlink link' hlink' hname
  rw [CallLink.symbol] at hname ⊢
  rw [CallLink.symbol, htarget]
  exact congrArg (SymbolPlan.mk · _) hname

/-- Linking calls adds relocations of calls to a text and constants. -/
theorem ofCalls_spec (hnames : ∀ link ∈ links, ∀ other ∈ links,
      link.name = other.name → link.target = other.target)
    (text rodata : ByteArray) (entryPc : Nat) (sbfV2 : Bool) :
    HasParts text rodata entryPc sbfV2 (ofCalls text rodata entryPc sbfV2 links) ∧
      List.Forall₂ (Addition.Numbered (ofCalls text rodata entryPc sbfV2 links).symbols)
        (links.map CallLink.addition) (ofCalls text rodata entryPc sbfV2 links).relocations := by
  rw [ofCalls, foldl_eq_foldl_add withCall_eq_add]
  exact foldl_add_ofParts (agree_of_names hnames) text rodata entryPc sbfV2

/-- Relocations of calls leave text and constants as they are. -/
theorem sections_of_calls {blueprint : Blueprint}
    (hplans : List.Forall₂ (Addition.Numbered blueprint.symbols) (links.map CallLink.addition)
      blueprint.relocations) :
    blueprint.textSection = blueprint.text ∧ blueprint.rodataSection = blueprint.rodata := by
  rw [textSection, rodataSection]
  generalize blueprint.relocations = plans at hplans
  induction links generalizing plans with
  | nil =>
    cases hplans
    exact ⟨rfl, rfl⟩
  | cons link links ih =>
    rw [List.map_cons] at hplans
    obtain ⟨plan, rest, hplan, hrest, rfl⟩ := List.forall₂_cons_left_iff.1 hplans
    cases hplan with
    | plain hnone => cases hnone
    | named hsome hi =>
      have hsame := ih rest hrest
      exact hsame

end Blueprint

-- ════════════════════════════════════════════════════════════════════════
-- Loading
-- ════════════════════════════════════════════════════════════════════════

variable {text rodata : ByteArray} {entryPc : Nat} {sbfV2 : Bool} {links : List CallLink}
variable {plain : Program}

/-- Links that are slots of the text are written in the same way wherever the text stands. -/
theorem CallLink.foldl_write_surrounded {slots : ByteArray} {outer inner : TextRange}
    (front behind : ByteArray) (houter : outer.start = front.size) (hinner : inner.start = 0)
    (hvalid : ∀ link ∈ links, link.Valid (slots.size / slotSize)) :
    links.foldl (write outer) (front ++ slots ++ behind) =
      front ++ links.foldl (write inner) slots ++ behind :=
  TextRange.foldl_writeImmediate_surrounded front behind houter hinner fun link hlink =>
    (hvalid link hlink).pc_lt

section Surrounded

/- The program is the bare one with linked calls, between other bytes. -/
variable {program : Program} {front behind : ByteArray}
variable (himage : program.image =
  front ++ links.foldl (CallLink.write plain.text) plain.image ++ behind)
variable (htext : program.text = { start := front.size, stop := front.size + plain.image.size })
variable (hplain : plain.text = { start := 0, stop := plain.image.size })
include himage htext hplain

theorem textBytes_of_foldl_write :
    program.textBytes = links.foldl (CallLink.write plain.text) plain.textBytes := by
  have hbytes : plain.image.extract 0 (0 + plain.image.size) = plain.image :=
    (Bytes.holds_self plain.image).extract
  rw [Nat.zero_add] at hbytes
  rw [← CallLink.size_foldl_write plain.text plain.image links] at htext
  rw [Program.textBytes_of_surrounded himage htext, Program.textBytes, hplain, hbytes]

theorem slot?_of_foldl_write (hvalid : ∀ link ∈ links, link.Valid plain.slotCount) (pc : Nat) :
    program.slot? pc = (plain.slot? pc).map (CallLink.relink links pc) := by
  have hsize := CallLink.size_foldl_write plain.text plain.image links
  have hcount : plain.slotCount = plain.image.size / slotSize := by
    rw [Program.slotCount, hplain]
    rfl
  have hinside (link : CallLink) (hlink : link ∈ links) :
      plain.text.slotOffset link.pc + slotSize ≤ plain.image.size := by
    have hpc := (hvalid link hlink).pc_lt
    rw [hplain, TextRange.slotOffset]
    simp only [slotSize] at hcount ⊢
    omega
  have hslot := CallLink.atOffset_foldl_write hinside pc
  have hoffset : plain.text.slotOffset pc = slotSize * pc := by
    rw [hplain, TextRange.slotOffset, Nat.zero_add]
  rw [← hsize] at htext
  rw [Program.slot?_of_surrounded himage htext, hsize, ← hcount, Program.slot?, ← hoffset, hslot,
    apply_ite (Option.map _), Option.map_some, Option.map_none]

end Surrounded

/-- The image of a file with linked calls is linked. -/
theorem Blueprint.Buildable.exists_links_of_calls {blueprint : Blueprint} {linkage : Linkage}
    (h : blueprint.Buildable)
    (hplans : List.Forall₂ (Addition.Numbered blueprint.symbols) (links.map CallLink.addition)
      blueprint.relocations)
    (hlinkage : (Linkage.ofImage blueprint.text).resolveCalls
      { start := 0, stop := blueprint.text.size } = .ok linkage)
    (hvalid : ∀ link ∈ links, link.Valid (blueprint.text.size / slotSize)) :
    ∃ resolved linked, blueprint.Links resolved linked ∧
      linked.image =
        placedImage
          (links.foldl (CallLink.write { start := 0, stop := blueprint.text.size }) linkage.image)
          blueprint.rodata ∧
      (∀ hash slot, linked.functions.slot? hash = some slot ↔
        linkage.functions.slot? hash = some slot ∨
          hash = CallHash.ofSlot slot ∧ ∃ link ∈ links, link.target = some slot) ∧
      linked.counts =
        { calls := linkage.calls
          abs64 := 0
          relative := 0
          functions := links.countP (·.target.isSome)
          syscalls := links.countP (·.target.isNone) } := by
  obtain ⟨htext, hrodata⟩ := sections_of_calls hplans
  rw [← htext] at hlinkage
  obtain ⟨resolved, hresolved, himage, hfunctions, hcalls⟩ := h.exists_resolveCalls hlinkage
  obtain ⟨hsize, hwithin⟩ := Linkage.resolveCalls_keeps hresolved
  have hslots : linkage.image.size = blueprint.textSection.size :=
    (Linkage.resolveCalls_keeps hlinkage).1
  have hvalid' := hvalid
  rw [← blueprint.slotCount_textRange] at hvalid'
  obtain ⟨linked, hlinked, happlied⟩ := CallLink.exists_applyAll
    { image := resolved.image
      functions := resolved.functions
      counts :=
        { calls := resolved.calls, abs64 := 0, relative := 0, functions := 0, syscalls := 0 } }
    h hplans hvalid' hwithin hsize
  refine ⟨resolved, linked, ⟨hresolved, hlinked⟩, ?_, fun hash slot => ?_, ?_⟩
  · rw [happlied.image, himage, hrodata]
    refine CallLink.foldl_write_surrounded _ _ (Bytes.size_zeros _).symm rfl ?_
    rw [hslots, htext]
    exact hvalid
  · rw [happlied.functions, hfunctions]
  · rw [happlied.counts, CallLink.foldl_count]
    simp only [hcalls, Nat.zero_add]

/-- A file with linked calls is loaded: its program is that of the bare text, with the constants
behind it and with the linked calls. -/
theorem load_ofCalls (hplain : Program.ofText text = .ok plain)
    (hentry : entryPc < text.size / slotSize)
    (hvalid : ∀ link ∈ links, link.Valid (text.size / slotSize))
    (hnames : ∀ link ∈ links, ∀ other ∈ links,
      link.name = other.name → link.target = other.target)
    (hsize : (Blueprint.ofCalls text rodata entryPc sbfV2 links).build.size ≤ maxFileSize) :
    ∃ loaded, load (Blueprint.ofCalls text rodata entryPc sbfV2 links).build = .ok loaded ∧
      CallsLinked text rodata entryPc sbfV2 links plain loaded := by
  obtain ⟨⟨hnonempty, haligned⟩, linkage, hlinkage, rfl⟩ :=
    Program.exists_linkage_of_ofText hplain
  obtain ⟨blueprint, hblueprint⟩ : ∃ blueprint,
    blueprint = Blueprint.ofCalls text rodata entryPc sbfV2 links := ⟨_, rfl⟩
  obtain ⟨hparts, hplans⟩ := Blueprint.ofCalls_spec hnames text rodata entryPc sbfV2
  rw [← hblueprint] at hparts hplans hsize ⊢
  obtain ⟨rfl, rfl, rfl, rfl, hsegments⟩ := hparts
  have hbuild : blueprint.Buildable := ⟨hsegments, hnonempty, haligned, hsize⟩
  have hentry' : slotSize * blueprint.entryPc < blueprint.text.size := by
    simp only [slotSize] at hentry ⊢
    omega
  obtain ⟨resolved, linked, hlinks, himage, hfunctions, hcounts⟩ :=
    hbuild.exists_links_of_calls hplans hlinkage hvalid
  have hslots : linkage.image.size = blueprint.text.size :=
    (Linkage.resolveCalls_keeps hlinkage).1
  have htext : blueprint.textRange =
      { start := (Bytes.zeros textOffset).size
        stop := (Bytes.zeros textOffset).size + linkage.image.size } := by
    rw [Bytes.size_zeros, hslots, Blueprint.textRange]
  have hplainText : ({ start := 0, stop := blueprint.text.size } : TextRange) =
      { start := 0, stop := linkage.image.size } := by rw [hslots]
  refine ⟨_, hbuild.load_build hentry' hlinks,
    { textBytes := textBytes_of_foldl_write himage htext hplainText
      slots := slot?_of_foldl_write himage htext hplainText hvalid
      rodata := ?_
      entryPc := rfl
      sbfV2 := rfl
      functions := hfunctions
      counts := ?_ }⟩
  · have hheld := (holds_placedImage (links.foldl
      (CallLink.write { start := 0, stop := blueprint.text.size }) linkage.image)
      blueprint.rodata).2
    rw [← himage, CallLink.size_foldl_write, hslots, ← hbuild.rodataOffset_eq] at hheld
    rw [← hblueprint]
    exact hheld
  · rw [hcounts, (Linkage.resolved_of_resolveCalls hlinkage).calls]
    simp only [Linkage.ofImage, Nat.zero_add, Program.slotCount]

/-- A relative call, two calls that wait for a relocation, and the end of the program. -/
def linkedText : ByteArray :=
  encodeText
    [.new 0x85 0 0 0 2, .new 0x85 0 0 0 (-1), .new 0x85 0 0 0 (-1), .new 0x95 0 0 0 0]

/-- The first of the waiting calls is linked twice, the second time with a function. -/
def linkedCalls : List CallLink :=
  [{ pc := 1, name := "sol_log_", target := none },
   { pc := 2, name := "sol_log_", target := none },
   { pc := 1, name := "done", target := some 3 }]

/-- Three relocations and a relative call: the last relocation of the first call is the one that
counts. -/
theorem load_linkedCalls :
    ∃ plain loaded, Program.ofText linkedText = .ok plain ∧
      load (Blueprint.ofCalls linkedText "log".toUTF8 0 true linkedCalls).build = .ok loaded ∧
      CallsLinked linkedText "log".toUTF8 0 true linkedCalls plain loaded := by
  obtain ⟨plain, hplain⟩ : ∃ plain, Program.ofText linkedText = .ok plain :=
    Program.exists_ofText (by decide +kernel) (by decide +kernel) (by decide +kernel)
      (by decide +kernel)
  have hvalid : ∀ link ∈ linkedCalls, link.Valid (linkedText.size / slotSize) := by
    decide +kernel
  have hsize : (Blueprint.ofCalls linkedText "log".toUTF8 0 true linkedCalls).build.size ≤
      maxFileSize := by
    rw [Blueprint.size_build rfl]
    decide +kernel
  obtain ⟨loaded, hload, hlinked⟩ :=
    load_ofCalls hplain (by decide +kernel) hvalid (by decide +kernel) hsize
  exact ⟨plain, loaded, hplain, hload, hlinked⟩

end SbfMachine.Link
