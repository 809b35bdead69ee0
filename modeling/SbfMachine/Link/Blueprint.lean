import SbfMachine.Link.Relocation

/-!
# Writing shared objects

A blueprint says what a shared object is to contain: instructions, constants, symbols and
relocations. The file that it describes consists of the file header, a program header for text
and constants, `.text`, `.rodata`, `.dynamic`, `.dynsym`, `.dynstr`, `.rel.dyn`, `.shstrtab` and
the section headers, with the address of each section equal to its file offset. With further
segments the program headers stand at the end of the file instead.

## Main definitions

- `Blueprint` — what a file is to contain
- `Blueprint.withSyscall` and its relatives — adding relocations
- `Blueprint.build` — the file
-/

namespace SbfMachine.Link

open Elf

/-- What a symbol of a blueprint stands for. -/
inductive SymbolTarget
  /-- Something outside the file: a system call. -/
  | undefined
  /-- The function at a slot. -/
  | function (slot : Nat)
  /-- The constant at an offset of `.rodata`. -/
  | data (offset : Nat)
  deriving DecidableEq

structure SymbolPlan where
  name : String
  target : SymbolTarget
  deriving DecidableEq

/-- A relocation of a blueprint. Symbols are numbered from one. -/
inductive RelocationPlan
  /-- The call at slot `pc` goes to a symbol. -/
  | call (pc symbol : Nat)
  /-- The constant loaded at slot `pc` is the address of a symbol plus what stands there. -/
  | abs64 (pc symbol : Nat)
  /-- The constant loaded at slot `pc` is the address of an offset of `.rodata`. -/
  | textRelative (pc offset : Nat)
  /-- The eight bytes at offset `place` of `.rodata` are the address of another offset. -/
  | dataRelative (place offset : Nat)
  /-- A relocation of any kind on slot `pc`, without a symbol. -/
  | raw (pc : Nat) (kind : UInt32)
  deriving DecidableEq

structure SegmentPlan where
  offset : UInt64
  vaddr : UInt64
  filesz : UInt64
  memsz : UInt64
  deriving DecidableEq

/-- What a shared object is to contain. -/
structure Blueprint where
  text : ByteArray
  rodata : ByteArray
  entryPc : Nat
  sbfV2 : Bool
  symbols : List SymbolPlan
  relocations : List RelocationPlan
  segments : List SegmentPlan

/-- A section of the file that is being written. -/
structure SectionPlan where
  name : String
  kind : UInt32
  offset : Nat
  size : Nat
  link : UInt32

namespace Blueprint

/-- The blueprint of a file with nothing but instructions. -/
def ofText (text : ByteArray) : Blueprint where
  text
  rodata := ByteArray.empty
  entryPc := 0
  sbfV2 := false
  symbols := []
  relocations := []
  segments := []

def textOffset : Nat :=
  Bytes.align8 (Record.size FileHeader + Record.size ProgramHeader)

def rodataOffset (blueprint : Blueprint) : Nat :=
  textOffset + Bytes.align8 blueprint.text.size

-- Additions

/-- Adds a symbol unless there is one of that name, and returns its number. -/
def withSymbol (blueprint : Blueprint) (name : String) (target : SymbolTarget) :
    Nat × Blueprint :=
  match blueprint.symbols.findIdx? (·.name = name) with
  | some index => (index + 1, blueprint)
  | none =>
    (blueprint.symbols.length + 1,
      { blueprint with symbols := blueprint.symbols ++ [{ name, target }] })

def withRelocation (blueprint : Blueprint) (relocation : RelocationPlan) : Blueprint :=
  { blueprint with relocations := blueprint.relocations ++ [relocation] }

/-- The call at slot `pc` goes to the system call `name`. -/
def withSyscall (blueprint : Blueprint) (pc : Nat) (name : String) : Blueprint :=
  let (symbol, blueprint) := blueprint.withSymbol name .undefined
  blueprint.withRelocation (.call pc symbol)

/-- The call at slot `pc` goes to the function `name` at slot `target`. -/
def withFunction (blueprint : Blueprint) (pc : Nat) (name : String) (target : Nat) : Blueprint :=
  let (symbol, blueprint) := blueprint.withSymbol name (.function target)
  blueprint.withRelocation (.call pc symbol)

/-- The constant loaded at slot `pc` is increased by the address of the constant `name` at an
offset of `.rodata`. -/
def withAbs64 (blueprint : Blueprint) (pc : Nat) (name : String) (offset : Nat) : Blueprint :=
  let (symbol, blueprint) := blueprint.withSymbol name (.data offset)
  blueprint.withRelocation (.abs64 pc symbol)

/-- The constant loaded at slot `pc` is the address of an offset of `.rodata`. -/
def withTextRelative (blueprint : Blueprint) (pc offset : Nat) : Blueprint :=
  blueprint.withRelocation (.textRelative pc offset)

/-- The eight bytes at an offset of `.rodata` are the address of another offset. -/
def withDataRelative (blueprint : Blueprint) (place offset : Nat) : Blueprint :=
  blueprint.withRelocation (.dataRelative place offset)

def withRaw (blueprint : Blueprint) (pc : Nat) (kind : UInt32) : Blueprint :=
  blueprint.withRelocation (.raw pc kind)

def withSegment (blueprint : Blueprint) (segment : SegmentPlan) : Blueprint :=
  { blueprint with segments := blueprint.segments ++ [segment] }

-- Contents of the sections

/-- The address of an offset of `.rodata`, counted from the start of the image. -/
def rodataAddress (blueprint : Blueprint) (offset : Nat) : UInt64 :=
  UInt64.ofNat (blueprint.rodataOffset + offset)

/-- Puts the addresses that relative relocations of instructions start from into the text. -/
def textWithAddress (blueprint : Blueprint) (text : ByteArray) : RelocationPlan → ByteArray
  | .textRelative pc offset =>
    let place := slotSize * pc
    let address := blueprint.rodataAddress offset
    Bytes.writeLE
      (Bytes.writeLE text (place + immediateOffset) address immediateSize)
      (place + secondImmediateOffset) (address / 0x100000000) immediateSize
  | _ => text

/-- Puts the addresses that relative relocations of data start from into the constants. -/
def rodataWithAddress (blueprint : Blueprint) (rodata : ByteArray) :
    RelocationPlan → ByteArray
  | .dataRelative place offset =>
    let address := blueprint.rodataAddress offset
    if blueprint.sbfV2 then Bytes.writeLE rodata place address addressSize
    else Bytes.writeLE rodata (place + immediateOffset) address immediateSize
  | _ => rodata

def textSection (blueprint : Blueprint) : ByteArray :=
  blueprint.relocations.foldl blueprint.textWithAddress blueprint.text

def rodataSection (blueprint : Blueprint) : ByteArray :=
  blueprint.relocations.foldl blueprint.rodataWithAddress blueprint.rodata

/-- A string table that starts with the empty string. -/
def stringTable (names : List String) : ByteArray :=
  names.foldl (fun table name => (table ++ name.toUTF8).push 0) (ByteArray.empty.push 0)

/-- The offsets of strings in a table whose first string stands at `start`. -/
def stringOffsets (start : Nat) : List String → List Nat
  | [] => []
  | name :: rest => start :: stringOffsets (start + name.utf8ByteSize + 1) rest

def symbolNames (blueprint : Blueprint) : ByteArray :=
  stringTable (blueprint.symbols.map (·.name))

/-- The kind of a symbol that is a constant. -/
def objectSymbolKind : UInt8 := 1

/-- A symbol whose name stands at an offset of `.dynstr`. -/
def symbolRecord (blueprint : Blueprint) (plan : SymbolPlan) (name : Nat) : Symbol :=
  let (kind, value) : UInt8 × Nat :=
    match plan.target with
    | .undefined => (0, 0)
    | .function slot => (functionSymbolKind, textOffset + slotSize * slot)
    | .data offset => (objectSymbolKind, blueprint.rodataOffset + offset)
  { name := UInt32.ofNat name
    info := 0x10 + kind
    other := 0
    shndx := 0
    value := UInt64.ofNat value
    size := 0 }

/-- The symbols, after the one that stands for none. -/
def symbolRecords (blueprint : Blueprint) : List Symbol :=
  { name := 0, info := 0, other := 0, shndx := 0, value := 0, size := 0 } ::
    List.zipWith blueprint.symbolRecord blueprint.symbols
      (stringOffsets 1 (blueprint.symbols.map (·.name)))

/-- The relocation of a kind, with a symbol, at a file offset. -/
def relocationAt (offset symbol : Nat) (kind : UInt32) : Relocation where
  offset := UInt64.ofNat offset
  info := UInt64.ofNat symbol * 0x100000000 + kind.toUInt64

def relocationRecord (blueprint : Blueprint) : RelocationPlan → Relocation
  | .call pc symbol => relocationAt (textOffset + slotSize * pc) symbol RelocationKind.call.number
  | .abs64 pc symbol => relocationAt (textOffset + slotSize * pc) symbol RelocationKind.abs64.number
  | .textRelative pc _ =>
    relocationAt (textOffset + slotSize * pc) 0 RelocationKind.relative.number
  | .dataRelative place _ =>
    relocationAt (blueprint.rodataOffset + place) 0 RelocationKind.relative.number
  | .raw pc kind => relocationAt (textOffset + slotSize * pc) 0 kind

def symbolSection (blueprint : Blueprint) : ByteArray :=
  encodeTable blueprint.symbolRecords

def relocationSection (blueprint : Blueprint) : ByteArray :=
  encodeTable (blueprint.relocations.map blueprint.relocationRecord)

def sectionNames : List String :=
  [".text", ".rodata", ".dynamic", ".dynsym", ".dynstr", ".rel.dyn", ".shstrtab"]

def sectionNameTable : ByteArray :=
  stringTable sectionNames

-- Places of the sections

def dynamicEntryCount : Nat := 6

def dynamicOffset (blueprint : Blueprint) : Nat :=
  Bytes.align8 (blueprint.rodataOffset + blueprint.rodata.size)

def symbolOffset (blueprint : Blueprint) : Nat :=
  blueprint.dynamicOffset + dynamicEntryCount * Record.size DynamicEntry

def symbolNamesOffset (blueprint : Blueprint) : Nat :=
  blueprint.symbolOffset + blueprint.symbolSection.size

def relocationOffset (blueprint : Blueprint) : Nat :=
  Bytes.align8 (blueprint.symbolNamesOffset + blueprint.symbolNames.size)

def sectionNamesOffset (blueprint : Blueprint) : Nat :=
  blueprint.relocationOffset + blueprint.relocationSection.size

def sectionHeadersOffset (blueprint : Blueprint) : Nat :=
  Bytes.align8 (blueprint.sectionNamesOffset + sectionNameTable.size)

def sectionHeadersEnd (blueprint : Blueprint) : Nat :=
  blueprint.sectionHeadersOffset + (sectionNames.length + 1) * Record.size SectionHeader

def programHeadersOffset (blueprint : Blueprint) : Nat :=
  if blueprint.segments.isEmpty then Record.size FileHeader else blueprint.sectionHeadersEnd

-- Headers and tables

def dynamicEntry (tag value : Nat) : DynamicEntry where
  tag := UInt64.ofNat tag
  value := UInt64.ofNat value

def dynamicEntries (blueprint : Blueprint) : List DynamicEntry :=
  let symbols : List DynamicEntry :=
    [dynamicEntry DynamicTable.symbolTableTag blueprint.symbolOffset,
     dynamicEntry DynamicTable.symbolNamesTag blueprint.symbolNamesOffset]
  let relocations : List DynamicEntry :=
    if blueprint.relocations.isEmpty then []
    else
      [dynamicEntry DynamicTable.relocationTag blueprint.relocationOffset,
       dynamicEntry DynamicTable.relocationSizeTag blueprint.relocationSection.size,
       dynamicEntry DynamicTable.relocationEntryTag (Record.size Relocation)]
  let entries := relocations ++ symbols
  entries ++ List.replicate (dynamicEntryCount - entries.length) (dynamicEntry 0 0)

/-- The kind of a section with data of the program. -/
def progBitsKind : UInt32 := 1

/-- The kind of a section with relocations. -/
def relocationSectionKind : UInt32 := 9

def sectionPlans (blueprint : Blueprint) : List SectionPlan :=
  [{ name := ".text", kind := progBitsKind, offset := textOffset,
     size := blueprint.text.size, link := 0 },
   { name := ".rodata", kind := progBitsKind, offset := blueprint.rodataOffset,
     size := blueprint.rodata.size, link := 0 },
   { name := ".dynamic", kind := dynamicSectionKind, offset := blueprint.dynamicOffset,
     size := dynamicEntryCount * Record.size DynamicEntry, link := 5 },
   { name := ".dynsym", kind := dynamicSymbolsKind, offset := blueprint.symbolOffset,
     size := blueprint.symbolSection.size, link := 5 },
   { name := ".dynstr", kind := stringTableKind, offset := blueprint.symbolNamesOffset,
     size := blueprint.symbolNames.size, link := 0 },
   { name := ".rel.dyn", kind := relocationSectionKind, offset := blueprint.relocationOffset,
     size := blueprint.relocationSection.size, link := 4 },
   { name := ".shstrtab", kind := stringTableKind, offset := blueprint.sectionNamesOffset,
     size := sectionNameTable.size, link := 0 }]

/-- The header of a section whose name stands at an offset of `.shstrtab`. -/
def sectionHeader (plan : SectionPlan) (name : Nat) : SectionHeader where
  name := UInt32.ofNat name
  kind := plan.kind
  flags := 0
  addr := UInt64.ofNat plan.offset
  offset := UInt64.ofNat plan.offset
  size := UInt64.ofNat plan.size
  link := plan.link
  info := 0
  addralign := 8
  entsize := 0

/-- The header of no section. -/
def nullSectionHeader : SectionHeader where
  name := 0
  kind := nullSectionKind
  flags := 0
  addr := 0
  offset := 0
  size := 0
  link := 0
  info := 0
  addralign := 0
  entsize := 0

def sectionHeaders (blueprint : Blueprint) : List SectionHeader :=
  nullSectionHeader ::
    List.zipWith sectionHeader blueprint.sectionPlans (stringOffsets 1 sectionNames)

def mainSegment (blueprint : Blueprint) : SegmentPlan :=
  let size := UInt64.ofNat (blueprint.rodataOffset + blueprint.rodata.size - textOffset)
  { offset := UInt64.ofNat textOffset, vaddr := UInt64.ofNat textOffset, filesz := size,
    memsz := size }

def programHeader (segment : SegmentPlan) : ProgramHeader where
  kind := loadSegmentKind
  flags := 5
  offset := segment.offset
  vaddr := segment.vaddr
  paddr := segment.vaddr
  filesz := segment.filesz
  memsz := segment.memsz
  align := 8

def programHeaders (blueprint : Blueprint) : List ProgramHeader :=
  (blueprint.mainSegment :: blueprint.segments).map programHeader

/-- The first sixteen bytes of the file. -/
def ident : ByteArray :=
  ⟨#[0x7f, 0x45, 0x4c, 0x46, 2, 1, 1, 0, 0, 0, 0, 0, 0, 0, 0, 0]⟩

def fileHeader (blueprint : Blueprint) : FileHeader where
  ident := ident
  kind := sharedObjectKind
  machine := bpfMachine
  version := 1
  entry := UInt64.ofNat (textOffset + slotSize * blueprint.entryPc)
  phoff := UInt64.ofNat blueprint.programHeadersOffset
  shoff := UInt64.ofNat blueprint.sectionHeadersOffset
  flags := if blueprint.sbfV2 then sbfV2Flags else 0
  ehsize := UInt16.ofNat (Record.size FileHeader)
  phentsize := UInt16.ofNat (Record.size ProgramHeader)
  phnum := UInt16.ofNat (blueprint.segments.length + 1)
  shentsize := UInt16.ofNat (Record.size SectionHeader)
  shnum := UInt16.ofNat (sectionNames.length + 1)
  shstrndx := UInt16.ofNat sectionNames.length

-- The file

/-- Appends a part of the file at an offset, after zero bytes up to there. -/
def place (file : ByteArray) (offset : Nat) (part : ByteArray) : ByteArray :=
  Bytes.padTo file offset ++ part

/-- The parts of the file and where they stand, in order. -/
def parts (blueprint : Blueprint) : List (Nat × ByteArray) :=
  let programHeaders := (blueprint.programHeadersOffset, encodeTable blueprint.programHeaders)
  let front := if blueprint.segments.isEmpty then [programHeaders] else []
  let back := if blueprint.segments.isEmpty then [] else [programHeaders]
  [(0, encodeTable [blueprint.fileHeader])] ++ front ++
    [(textOffset, blueprint.textSection),
     (blueprint.rodataOffset, blueprint.rodataSection),
     (blueprint.dynamicOffset, encodeTable blueprint.dynamicEntries),
     (blueprint.symbolOffset, blueprint.symbolSection),
     (blueprint.symbolNamesOffset, blueprint.symbolNames),
     (blueprint.relocationOffset, blueprint.relocationSection),
     (blueprint.sectionNamesOffset, sectionNameTable),
     (blueprint.sectionHeadersOffset, encodeTable blueprint.sectionHeaders)] ++ back

def build (blueprint : Blueprint) : ByteArray :=
  blueprint.parts.foldl (fun file (offset, part) => place file offset part) ByteArray.empty

end Blueprint

end SbfMachine.Link
