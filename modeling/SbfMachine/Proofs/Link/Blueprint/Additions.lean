import Mathlib.Data.List.Forall2
import SbfMachine.Proofs.Link.Blueprint.Image

/-!
# Symbols of additions

What is added to a blueprint refers to a symbol by its number. A symbol that has been added keeps
its number, and an addition that names it again gets the same number, so each addition refers to
its own symbol as long as a name always means the same.

## Main definitions

- `Addition` — a relocation that is added, with the symbol that it refers to
- `Blueprint.add` — adding it
- `Blueprint.ofParts`, `Blueprint.HasParts` — text and constants to which something is added
- `Addition.Numbered` — a relocation refers to the symbol of an addition

## Main statements

- `Blueprint.foldl_add_ofParts` — additions become relocations that refer to their symbols
- `Blueprint.Buildable.symbol_object` — the symbol with a number, and its name, are read back
-/

namespace SbfMachine.Link

open Elf

/-- A relocation that is added to a blueprint, given the number of its symbol, if it has one. -/
structure Addition where
  symbol? : Option SymbolPlan
  relocation : Nat → RelocationPlan

namespace Addition

/-- The relocation refers to the symbol of the addition. Symbols are numbered from one. -/
inductive Numbered (symbols : List SymbolPlan) (addition : Addition) : RelocationPlan → Prop
  | plain (h : addition.symbol? = none) :
      Numbered symbols addition (addition.relocation 0)
  | named {symbol : SymbolPlan} {i : Nat} (h : addition.symbol? = some symbol)
      (hi : symbols[i]? = some symbol) : Numbered symbols addition (addition.relocation (i + 1))

theorem Numbered.mono {symbols more : List SymbolPlan} {addition : Addition}
    {plan : RelocationPlan} (h : addition.Numbered symbols plan) (hmore : symbols <+: more) :
    addition.Numbered more plan := by
  cases h with
  | plain h => exact .plain h
  | named h hi =>
    obtain ⟨rest, rfl⟩ := hmore
    have hlt := (List.getElem?_eq_some_iff.1 hi).1
    exact .named h (by rw [List.getElem?_append_left hlt, hi])

/-- Symbols with the same name are the same. -/
def Agree (s t : SymbolPlan) : Prop :=
  s.name = t.name → s = t

end Addition

namespace Blueprint

/-- Adds a relocation and its symbol. -/
def add (blueprint : Blueprint) (addition : Addition) : Blueprint :=
  match addition.symbol? with
  | none => blueprint.withRelocation (addition.relocation 0)
  | some symbol =>
    let (number, blueprint) := blueprint.withSymbol symbol.name symbol.target
    blueprint.withRelocation (addition.relocation number)

/-- The file with a text and constants, before anything is added. -/
def ofParts (text rodata : ByteArray) (entryPc : Nat) (sbfV2 : Bool) : Blueprint :=
  { ofText text with rodata, entryPc, sbfV2 }

/-- The blueprint has a text and constants, and perhaps symbols and relocations. -/
structure HasParts (text rodata : ByteArray) (entryPc : Nat) (sbfV2 : Bool)
    (blueprint : Blueprint) : Prop where
  text : blueprint.text = text
  rodata : blueprint.rodata = rodata
  entryPc : blueprint.entryPc = entryPc
  sbfV2 : blueprint.sbfV2 = sbfV2
  segments : blueprint.segments = []

/-- The additions mean the same by a name as one another and as the symbols that there are. -/
structure Consistent (symbols : List SymbolPlan) (additions : List Addition) : Prop where
  symbols : ∀ s ∈ symbols, ∀ addition ∈ additions, ∀ t, addition.symbol? = some t →
    Addition.Agree s t
  additions : ∀ addition ∈ additions, ∀ s, addition.symbol? = some s →
    ∀ other ∈ additions, ∀ t, other.symbol? = some t → Addition.Agree s t

/-- Steps that are additions are the additions, one after the other. -/
theorem foldl_eq_foldl_add {α : Type} {step : Blueprint → α → Blueprint} {addition : α → Addition}
    (hstep : ∀ blueprint item, step blueprint item = blueprint.add (addition item))
    (items : List α) (blueprint : Blueprint) :
    items.foldl step blueprint = (items.map addition).foldl add blueprint := by
  obtain rfl : step = fun blueprint item => blueprint.add (addition item) := by
    funext blueprint item
    exact hstep blueprint item
  rw [List.foldl_map]

-- ════════════════════════════════════════════════════════════════════════
-- One addition
-- ════════════════════════════════════════════════════════════════════════

variable {blueprint : Blueprint}

/-- Adding a symbol gives its number, and only adds that symbol. -/
theorem withSymbol_spec {symbol : SymbolPlan}
    (hagree : ∀ s ∈ blueprint.symbols, Addition.Agree s symbol) :
    ∃ i symbols, blueprint.withSymbol symbol.name symbol.target =
        (i + 1, { blueprint with symbols }) ∧
      symbols[i]? = some symbol ∧ blueprint.symbols <+: symbols ∧
      ∀ s ∈ symbols, s ∈ blueprint.symbols ∨ s = symbol := by
  unfold withSymbol
  split
  · next i hi =>
    obtain ⟨hlt, hname, _⟩ := List.findIdx?_eq_some_iff_getElem.1 hi
    have hsame : blueprint.symbols[i] = symbol :=
      hagree _ (List.getElem_mem hlt) (of_decide_eq_true hname)
    exact ⟨i, blueprint.symbols, rfl, by rw [List.getElem?_eq_getElem hlt, hsame],
      List.prefix_refl _, fun s hs => .inl hs⟩
  · refine ⟨blueprint.symbols.length, blueprint.symbols ++ [symbol], rfl,
      List.getElem?_concat_length, List.prefix_append _ _, fun s hs => ?_⟩
    rcases List.mem_append.1 hs with hold | hnew
    · exact .inl hold
    · exact .inr (List.mem_singleton.1 hnew)

/-- An addition adds one relocation, which refers to its symbol. -/
theorem add_spec {addition : Addition}
    (hagree : ∀ s ∈ blueprint.symbols, ∀ t, addition.symbol? = some t → Addition.Agree s t) :
    ∃ plan symbols, blueprint.add addition =
        { blueprint with symbols, relocations := blueprint.relocations ++ [plan] } ∧
      addition.Numbered symbols plan ∧ blueprint.symbols <+: symbols ∧
      ∀ s ∈ symbols, s ∈ blueprint.symbols ∨ addition.symbol? = some s := by
  unfold add
  split
  · next hnone =>
    exact ⟨_, blueprint.symbols, rfl, .plain hnone, List.prefix_refl _, fun s hs => .inl hs⟩
  · next symbol hsymbol =>
    obtain ⟨i, symbols, hadded, hi, hprefix, hmem⟩ :=
      withSymbol_spec fun s hs => hagree s hs symbol hsymbol
    rw [hadded]
    refine ⟨_, symbols, rfl, .named hsymbol hi, hprefix, fun s hs => ?_⟩
    rcases hmem s hs with hold | rfl
    · exact .inl hold
    · exact .inr hsymbol

-- ════════════════════════════════════════════════════════════════════════
-- All additions
-- ════════════════════════════════════════════════════════════════════════

/-- Additions become relocations that refer to their symbols; nothing else is changed. -/
theorem exists_plans {additions : List Addition}
    (hconsistent : Consistent blueprint.symbols additions) :
    ∃ plans symbols, additions.foldl add blueprint =
        { blueprint with symbols, relocations := blueprint.relocations ++ plans } ∧
      blueprint.symbols <+: symbols ∧
      List.Forall₂ (Addition.Numbered symbols) additions plans := by
  induction additions generalizing blueprint with
  | nil =>
    exact ⟨[], blueprint.symbols, by rw [List.append_nil]; rfl, List.prefix_refl _, .nil⟩
  | cons addition additions ih =>
    obtain ⟨plan, symbols, hadd, hnumbered, hprefix, hmem⟩ :=
      add_spec fun s hs t ht => hconsistent.symbols s hs addition List.mem_cons_self t ht
    have hrest : Consistent (blueprint.add addition).symbols additions := by
      rw [hadd]
      refine ⟨fun s hs other hother t ht => ?_, fun first hfirst s hs other hother t ht =>
        hconsistent.additions first (List.mem_cons_of_mem _ hfirst) s hs other
          (List.mem_cons_of_mem _ hother) t ht⟩
      rcases hmem s hs with hold | hnew
      · exact hconsistent.symbols s hold other (List.mem_cons_of_mem _ hother) t ht
      · exact hconsistent.additions addition List.mem_cons_self s hnew other
          (List.mem_cons_of_mem _ hother) t ht
    obtain ⟨plans, final, hall, hmore, hplans⟩ := ih hrest
    rw [hadd] at hall hmore
    refine ⟨plan :: plans, final, ?_, hprefix.trans hmore, .cons (hnumbered.mono hmore) hplans⟩
    rw [List.foldl_cons, hadd, hall]
    simp only [List.append_assoc, List.singleton_append]

/-- Additions to a text and constants become relocations that refer to their symbols. -/
theorem foldl_add_ofParts {additions : List Addition}
    (hagree : ∀ addition ∈ additions, ∀ s, addition.symbol? = some s →
      ∀ other ∈ additions, ∀ t, other.symbol? = some t → Addition.Agree s t)
    (text rodata : ByteArray) (entryPc : Nat) (sbfV2 : Bool) :
    HasParts text rodata entryPc sbfV2 (additions.foldl add (ofParts text rodata entryPc sbfV2)) ∧
      List.Forall₂
        (Addition.Numbered (additions.foldl add (ofParts text rodata entryPc sbfV2)).symbols)
        additions (additions.foldl add (ofParts text rodata entryPc sbfV2)).relocations := by
  have hconsistent : Consistent (ofParts text rodata entryPc sbfV2).symbols additions :=
    ⟨fun s hs => absurd hs List.not_mem_nil, hagree⟩
  obtain ⟨plans, symbols, hall, _, hplans⟩ := exists_plans hconsistent
  rw [hall]
  exact ⟨⟨rfl, rfl, rfl, rfl, rfl⟩, hplans⟩

-- ════════════════════════════════════════════════════════════════════════
-- Reading symbols and relocations
-- ════════════════════════════════════════════════════════════════════════

namespace Buildable

variable (h : blueprint.Buildable)
include h

theorem symbols_length_le : 24 * (blueprint.symbols.length + 1) ≤ 67108864 := by
  have hsize := blueprint.size_symbolSection
  obtain ⟨⟩ := h.placed
  omega

/-- The names of symbols are read from their string table. -/
theorem symbolName_object :
    ∃ header, (∀ symbol, blueprint.object.symbolName symbol =
        readString blueprint.build header symbol.name symbolNameLimit) ∧
      header.kind = stringTableKind ∧ header.offset.toNat = blueprint.symbolNamesOffset ∧
      header.size.toNat = blueprint.symbolNames.size := by
  have hoffset : (UInt64.ofNat blueprint.symbolNamesOffset).toNat =
      blueprint.symbolNamesOffset := by
    obtain ⟨⟩ := h.placed
    exact toNat_ofNat (by omega)
  have hsize : (UInt64.ofNat blueprint.symbolNames.size).toNat = blueprint.symbolNames.size := by
    obtain ⟨⟩ := h.placed
    exact toNat_ofNat (by omega)
  refine ⟨blueprint.sections.toArray[blueprint.symbolNamesIndex].header, fun symbol => ?_, rfl,
    hoffset, hsize⟩
  rw [Object.symbolName, object]

/-- The symbol with a number is read back, and so is its name. -/
theorem symbol_object {i : Nat} {plan : SymbolPlan} (hi : blueprint.symbols[i]? = some plan) :
    ∃ name, blueprint.object.symbol (UInt32.ofNat (i + 1)) =
        .ok (blueprint.symbolRecord plan name) ∧
      (NulFree plan.name → plan.name.utf8ByteSize < symbolNameLimit →
        blueprint.object.symbolName (blueprint.symbolRecord plan name) = .ok plan.name) := by
  have hlt : i < blueprint.symbols.length := (List.getElem?_eq_some_iff.1 hi).1
  have hnames : (blueprint.symbols.map (·.name))[i]? = some plan.name := by
    rw [List.getElem?_map, hi, Option.map_some]
  obtain ⟨name, hoffset, hheld⟩ := holds_stringTable hnames
  refine ⟨name, ?_, fun hnul hlimit => ?_⟩
  · have hnumber : (UInt32.ofNat (i + 1)).toNat = i + 1 := by
      have hlength := h.symbols_length_le
      exact toNat_ofNat32 (by omega)
    have hrecord : blueprint.object.symbols[(UInt32.ofNat (i + 1)).toNat]? =
        some (blueprint.symbolRecord plan name) := by
      rw [hnumber, object, List.getElem?_toArray, symbolRecords, List.getElem?_cons_succ,
        List.getElem?_zipWith_eq_some]
      exact ⟨plan, name, hi, hoffset, rfl⟩
    rw [Object.symbol, hrecord]
  · have htable := (heldBy_build h.segments).symbolNames
    have hinside := hheld.inside
    have hinside' := htable.inside
    have hstop := h.placed.stop_le
    have hfile : blueprint.build.size < UInt64.size := Nat.lt_of_le_of_lt hstop (by decide)
    have hname : (blueprint.symbolRecord plan name).name.toNat = name := by
      rw [symbolNames] at hinside'
      exact toNat_ofNat32 (by omega)
    obtain ⟨header, hread, hkind, hplace, hsize⟩ := h.symbolName_object
    rw [← hplace] at htable
    rw [← hname] at hheld
    rw [hread]
    exact readString_of_holds hkind hsize hfile htable hheld hnul hlimit

end Buildable

/-- The parts of a relocation are read back. -/
theorem relocationAt_spec {offset symbol : Nat} (kind : UInt32) (hoffset : offset ≤ 67108864)
    (hsymbol : symbol ≤ 67108864) :
    (relocationAt offset symbol kind).offset.toNat = offset ∧
      (relocationAt offset symbol kind).kind = kind ∧
      (relocationAt offset symbol kind).symbol = UInt32.ofNat symbol := by
  have hkind := kind.toNat_lt
  have hinfo : (relocationAt offset symbol kind).info.toNat = symbol * 4294967296 + kind.toNat := by
    rw [relocationAt, UInt64.toNat_add, UInt64.toNat_mul, toNat_ofNat hsymbol,
      UInt32.toNat_toUInt64]
    simp only [UInt64.reduceToNat]
    omega
  refine ⟨toNat_ofNat hoffset, ?_, ?_⟩
  · rw [Relocation.kind, ← UInt32.toNat_inj, UInt64.toNat_toUInt32, hinfo]
    omega
  · rw [Relocation.symbol, ← UInt32.toNat_inj, UInt64.toNat_toUInt32, UInt64.toNat_div, hinfo,
      toNat_ofNat32 hsymbol]
    simp only [UInt64.reduceToNat]
    omega

end Blueprint

end SbfMachine.Link
