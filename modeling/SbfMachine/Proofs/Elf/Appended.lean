import SbfMachine.Proofs.Bytes.Parts
import SbfMachine.Proofs.Checked.Records
import SbfMachine.Proofs.Elf.Acceptance

/-!
# Bytes behind a file

Whatever is read from a file is found by an offset from its start, and the size of the file matters
only as a bound for what lies inside. So a file that can be read is read the same when more bytes
stand behind it.

## Main definitions

- `Elf.Steady` — reading that does not depend on what stands behind a file

## Main statements

- `Elf.Steady.bind` — reading in steps
- `Elf.steady_readTable`, `Elf.steady_readString` — tables and strings
- `Elf.Object.ofFile_append` — the whole metadata
-/

namespace SbfMachine.Elf

/-- What is read from a file is read from the file with more bytes behind it as well. -/
def Steady {α : Type} (read : ByteArray → Except LoadError α) : Prop :=
  ∀ ⦃file value⦄, read file = .ok value → ∀ more, read (file ++ more) = .ok value

-- ════════════════════════════════════════════════════════════════════════
-- Reading in steps
-- ════════════════════════════════════════════════════════════════════════

namespace Steady

variable {α β : Type}

theorem const (outcome : Except LoadError α) : Steady fun _ => outcome :=
  fun _ _ h _ => h

theorem bind {first : ByteArray → Except LoadError α} {rest : α → ByteArray → Except LoadError β}
    (hfirst : Steady first) (hrest : ∀ value, Steady (rest value)) :
    Steady fun file => first file >>= fun value => rest value file := by
  intro file result h more
  obtain ⟨value, hvalue, hresult⟩ := exists_of_bind_eq_ok h
  dsimp only
  rw [hfirst hvalue more]
  exact hrest value hresult more

/-- A check against the size of the file that a larger size passes as well. -/
theorem ofSize {check : Nat → Except LoadError α}
    (hcheck : ∀ {small large value}, small ≤ large → check small = .ok value →
      check large = .ok value) : Steady fun file => check file.size := by
  intro file value h more
  refine hcheck ?_ h
  rw [ByteArray.size_append]
  exact Nat.le_add_right _ _

end Steady

-- ════════════════════════════════════════════════════════════════════════
-- Records and strings
-- ════════════════════════════════════════════════════════════════════════

section Records

variable {α : Type} [CheckedRecord α]

/-- The bytes of a record decide how it is decoded. -/
theorem decode_append {file : ByteArray} {offset : Nat}
    (h : offset + Record.size α ≤ file.size) (more : ByteArray) :
    Record.decode (file ++ more) offset = (Record.decode file offset : α) := by
  have hmore : offset + Record.size α ≤ (file ++ more).size := by
    rw [ByteArray.size_append]
    omega
  have hshort := CheckedRecord.decodeRaw_eq (α := α) file offset h
  have hlong := CheckedRecord.decodeRaw_eq (α := α) (file ++ more) offset hmore
  rw [Bytes.extract_append_left h, hshort] at hlong
  exact (Except.ok.inj (Option.some.inj hlong)).symm

theorem steady_readRecord (offset : Nat) : Steady fun file => readRecord α file offset := by
  intro file value h more
  simp only [readRecord] at h ⊢
  split at h
  · next hinside =>
    rw [if_pos (by rw [ByteArray.size_append]; omega), decode_append hinside]
    exact h
  · cases h

theorem steady_readTable (offset size : Nat) : Steady fun file => readTable α file offset size := by
  intro file records h more
  simp only [readTable] at h ⊢
  split at h
  · next hinside =>
    obtain ⟨hfile, haligned⟩ := hinside
    obtain rfl := Except.ok.inj h
    rw [if_pos ⟨by rw [ByteArray.size_append]; omega, haligned⟩]
    congr 2
    funext i
    have hlast := Nat.mul_le_mul_left (Record.size α) (Nat.succ_le_of_lt i.isLt)
    have hsize := Nat.mul_div_le size (Record.size α)
    rw [Nat.mul_succ] at hlast
    exact decode_append (by omega) more
  · cases h

end Records

/-- The zero byte that ends a string is looked for inside the file. -/
theorem lengthBeforeZero?_append {file : ByteArray} {start limit : Nat}
    (h : start + limit ≤ file.size) (more : ByteArray) :
    lengthBeforeZero? (file ++ more) start limit = lengthBeforeZero? file start limit := by
  induction limit generalizing start with
  | zero => rfl
  | succ limit ih =>
    rw [lengthBeforeZero?, lengthBeforeZero?, ih (by omega),
      Bytes.byteAt_append_left (by omega)]

theorem steady_readString (table : SectionHeader) (offset : UInt32) (limit : Nat) :
    Steady fun file => readString file table offset limit := by
  intro file name h more
  simp only [readString] at h ⊢
  split at h
  · next hinside =>
    obtain ⟨hkind, hoffset, hstop, hfile⟩ := hinside
    rw [if_pos ⟨hkind, hoffset, hstop, by rw [ByteArray.size_append]; omega⟩]
    generalize table.offset.toNat + offset.toNat = start at h hfile ⊢
    generalize min table.stop (start + limit) = stop at h hfile ⊢
    by_cases hrange : start ≤ stop
    · rw [lengthBeforeZero?_append (by omega)]
      cases hlength : lengthBeforeZero? file start (stop - start) with
      | none =>
        rw [hlength] at h
        cases h
      | some length =>
        have hlt := Checked.lt_of_lengthBeforeZero? hlength
        rw [hlength] at h
        rw [Option.bind_some, Bytes.extract_append_left (by omega)]
        exact h
    · rw [Nat.sub_eq_zero_of_le (Nat.le_of_not_le hrange)] at h
      cases h
  · cases h

-- ════════════════════════════════════════════════════════════════════════
-- Header tables
-- ════════════════════════════════════════════════════════════════════════

section Tables

variable {small large : Nat} (hsize : small ≤ large)
include hsize

theorem ProgramHeader.flaw?_of_le {file : FileHeader} {previous : Option ProgramHeader}
    {header : ProgramHeader} (h : header.flaw? small file previous = none) :
    header.flaw? large file previous = none := by
  simp only [ProgramHeader.flaw?, ite_eq_iff, reduceCtorEq, and_false, false_or, and_true] at h ⊢
  obtain ⟨hascending, hprevious, hinside, hclear⟩ := h
  exact ⟨hascending, hprevious, by omega, hclear⟩

theorem checkSegments_of_le {file : FileHeader} {index : Nat} {previous : Option ProgramHeader}
    {headers : List ProgramHeader} (h : checkSegments small file index previous headers = .ok ()) :
    checkSegments large file index previous headers = .ok () := by
  induction headers generalizing index previous with
  | nil => rfl
  | cons header headers ih =>
    rw [checkSegments] at h ⊢
    split at h
    · next hload =>
      rw [if_pos hload]
      cases hflaw : header.flaw? small file previous with
      | some flaw =>
        rw [hflaw] at h
        cases h
      | none =>
        rw [hflaw] at h
        rw [ProgramHeader.flaw?_of_le hsize hflaw]
        exact ih h
    · next hload =>
      rw [if_neg hload]
      exact ih h

theorem SectionHeader.flaw?_of_le {file : FileHeader} {dataEnd : Nat} {header : SectionHeader}
    (h : header.flaw? small file dataEnd = none) : header.flaw? large file dataEnd = none := by
  simp only [SectionHeader.flaw?, ite_eq_iff, reduceCtorEq, and_false, false_or, and_true] at h ⊢
  obtain ⟨hstop, hstart, hprogram, hsections, hinside, horder⟩ := h
  exact ⟨hstop, hstart, hprogram, hsections, by omega, horder⟩

theorem checkSections_of_le {file : FileHeader} {index dataEnd : Nat}
    {headers : List SectionHeader} (h : checkSections small file index dataEnd headers = .ok ()) :
    checkSections large file index dataEnd headers = .ok () := by
  induction headers generalizing index dataEnd with
  | nil => rfl
  | cons header headers ih =>
    rw [checkSections] at h ⊢
    split at h
    · next hdata =>
      rw [if_pos hdata]
      cases hflaw : header.flaw? small file dataEnd with
      | some flaw =>
        rw [hflaw] at h
        cases h
      | none =>
        rw [hflaw] at h
        rw [SectionHeader.flaw?_of_le hsize hflaw]
        exact ih h
    · next hdata =>
      rw [if_neg hdata]
      exact ih h

theorem checkSectionTable_of_le {file : FileHeader} {headers : List SectionHeader}
    (h : checkSectionTable small file headers = .ok ()) :
    checkSectionTable large file headers = .ok () := by
  cases headers with
  | nil => cases h
  | cons first rest =>
    rw [checkSectionTable] at h ⊢
    split at h
    · next hnull =>
      rw [if_pos hnull]
      exact checkSections_of_le hsize h
    · cases h

end Tables

theorem steady_readProgramHeaders (header : FileHeader) :
    Steady fun file => readProgramHeaders file header :=
  (steady_readTable _ _).bind fun _ =>
    (Steady.ofSize fun hsize => checkSegments_of_le hsize).bind fun _ => .const _

theorem steady_readSectionHeaders (header : FileHeader) :
    Steady fun file => readSectionHeaders file header :=
  (steady_readTable _ _).bind fun _ =>
    (Steady.ofSize fun hsize => checkSectionTable_of_le hsize).bind fun _ => .const _

-- ════════════════════════════════════════════════════════════════════════
-- Sections
-- ════════════════════════════════════════════════════════════════════════

theorem steady_nameSections (names : SectionHeader) (named : Array Section)
    (headers : List SectionHeader) :
    Steady fun file => nameSections file names named headers := by
  induction headers generalizing named with
  | nil => exact .const _
  | cons header headers ih =>
    intro file sections h more
    simp only [nameSections] at h ⊢
    split at h
    · cases h
    · next name hname =>
      have hmore : readString (file ++ more) names header.name sectionNameLimit = .ok name :=
        steady_readString names header.name sectionNameLimit hname more
      rw [hmore]
      dsimp only
      split at h
      · cases h
      · next hnew =>
        rw [if_neg hnew]
        exact ih _ h more

theorem steady_readSections (header : FileHeader) :
    Steady fun file => readSections file header := by
  refine (steady_readSectionHeaders header).bind fun headers => ?_
  cases headers[header.shstrndx.toNat]? with
  | none => exact .const _
  | some names =>
    dsimp only
    split
    · exact steady_nameSections names #[] headers.toList
    · exact .const _

-- ════════════════════════════════════════════════════════════════════════
-- Linking information
-- ════════════════════════════════════════════════════════════════════════

section Dynamic

variable (programHeaders : Array ProgramHeader) (sections : Array Section)

theorem steady_readDynamic : Steady fun file => readDynamic file programHeaders sections := by
  intro file dynamic h more
  simp only [readDynamic] at h ⊢
  split at h
  · exact h
  · split at h
    · cases h
    · next hsize =>
      rw [if_neg hsize]
      split at h
      · cases h
      · next offset size _ _ entries hentries =>
        have hmore : readTable DynamicEntry (file ++ more) offset size = .ok entries :=
          steady_readTable offset size hentries more
        rw [hmore]
        exact h

theorem steady_readRelocations (dynamic : DynamicTable) :
    Steady fun file => readRelocations file programHeaders sections dynamic := by
  unfold readRelocations
  dsimp only
  split
  · exact .const _
  · split
    · exact .const (.error _)
    · split
      · exact .const (.error _)
      · exact Steady.bind (.const _) fun offset =>
          (steady_readTable offset _).bind fun _ => .const _

theorem steady_readSymbols (dynamic : DynamicTable) :
    Steady fun file => readSymbols file sections dynamic := by
  unfold readSymbols
  dsimp only
  split
  · exact .const _
  · cases sectionAt? sections (dynamic.value DynamicTable.symbolTableTag) with
    | none => exact .const _
    | some header =>
      dsimp only
      split
      · exact .const (.error _)
      · split
        · exact .const (.error _)
        · exact steady_readTable _ _

end Dynamic

-- ════════════════════════════════════════════════════════════════════════
-- The whole metadata
-- ════════════════════════════════════════════════════════════════════════

namespace Object

/-- The object of a file with more bytes behind it. -/
def appended (object : Object) (more : ByteArray) : Object :=
  { object with file := object.file ++ more }

/-- The metadata of a file is read when more bytes stand behind it. -/
theorem ofFile_append {file : ByteArray} {object : Object} (h : ofFile file = .ok object)
    {more : ByteArray} (hsize : file.size + more.size ≤ maxFileSize) :
    ofFile (file ++ more) = .ok (object.appended more) := by
  unfold ofFile at h ⊢
  rw [ByteArray.size_append, if_neg (Nat.not_lt.2 hsize)]
  split at h
  · cases h
  · obtain ⟨header, hheader, h⟩ := exists_of_bind_eq_ok h
    obtain ⟨⟨⟩, hchecked, h⟩ := exists_of_bind_eq_ok h
    obtain ⟨programHeaders, hprogramHeaders, h⟩ := exists_of_bind_eq_ok h
    obtain ⟨sections, hsections, h⟩ := exists_of_bind_eq_ok h
    split at h
    · cases h
    · next text htext =>
      obtain ⟨dynamic, hdynamic, h⟩ := exists_of_bind_eq_ok h
      obtain ⟨relocations, hrelocations, h⟩ := exists_of_bind_eq_ok h
      obtain ⟨symbols, hsymbols, h⟩ := exists_of_bind_eq_ok h
      obtain rfl := Except.ok.inj h
      have hheader' := steady_readRecord 0 hheader more
      have hprogramHeaders' := steady_readProgramHeaders header hprogramHeaders more
      have hsections' := steady_readSections header hsections more
      have hdynamic' := steady_readDynamic programHeaders sections hdynamic more
      have hrelocations' :=
        steady_readRelocations programHeaders sections dynamic hrelocations more
      have hsymbols' := steady_readSymbols sections dynamic hsymbols more
      simp only [hheader', hchecked, hprogramHeaders', hsections', htext, hdynamic',
        hrelocations', hsymbols', bind, Except.bind]
      rfl

/-- The names of symbols are read when more bytes stand behind the file. -/
theorem symbolName_appended {object : Object} {symbol : Symbol} {name : String}
    (h : object.symbolName symbol = .ok name) (more : ByteArray) :
    (object.appended more).symbolName symbol = .ok name := by
  unfold symbolName at h ⊢
  dsimp only [appended]
  cases hnames : object.symbolNames with
  | none =>
    rw [hnames] at h
    cases h
  | some names =>
    rw [hnames] at h
    exact steady_readString _ _ _ h more

end Object

end SbfMachine.Elf
