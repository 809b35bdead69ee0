import SbfMachine.Elf.Layout

/-!
# Shared objects

A shared object is an ELF file whose metadata has been read and checked: its headers, its named
sections, and what its dynamic table says about relocations and symbols.

## Main definitions

- `Section`, `DynamicTable`, `Object` — the metadata
- `Object.ofFile` — reading and checking a file
- `Object.symbol`, `Object.symbolName` — looking up dynamic symbols
-/

namespace SbfMachine.Elf

/-- The largest file that is looked at, 64 MiB. -/
def maxFileSize : Nat := 0x4000000

/-- The name of a section must be shorter than this many bytes. -/
def sectionNameLimit : Nat := 16

/-- The name of a symbol must be shorter than this many bytes. -/
def symbolNameLimit : Nat := 1024

def dynamicSegmentKind : UInt32 := 2

def dynamicSectionKind : UInt32 := 6

def symbolTableKind : UInt32 := 2

def dynamicSymbolsKind : UInt32 := 11

def sbfV2Flags : UInt32 := 0x20

def textName : String := ".text"

def symbolNamesName : String := ".dynstr"

structure Section where
  name : String
  header : SectionHeader
  deriving DecidableEq

/-- The entries of a dynamic table that come before the end mark. -/
structure DynamicTable where
  entries : List DynamicEntry

namespace DynamicTable

/-- Number of tags that have a meaning; other tags are ignored. -/
def tagCount : Nat := 35

/-- The value of a tag: that of its last entry, and zero if there is none. -/
def value (table : DynamicTable) (tag : Nat) : UInt64 :=
  match table.entries.reverse.find? fun entry => entry.tag.toNat = tag with
  | some entry => entry.value
  | none => 0

def symbolNamesTag : Nat := 5

def symbolTableTag : Nat := 6

def relocationTag : Nat := 17

def relocationSizeTag : Nat := 18

def relocationEntryTag : Nat := 19

end DynamicTable

/-- A file with its metadata. -/
structure Object where
  file : ByteArray
  header : FileHeader
  programHeaders : Array ProgramHeader
  sections : Array Section
  text : Fin sections.size
  symbolNames : Option (Fin sections.size)
  dynamic : DynamicTable
  relocations : List Relocation
  symbols : Array Symbol

/-- The names that at most one section may have. -/
def isUniqueName (name : String) : Bool :=
  name = textName || name = symbolNamesName

/-- Gives section headers their names, after the sections that are named already. -/
def nameSections (file : ByteArray) (names : SectionHeader) (named : Array Section) :
    List SectionHeader → Except LoadError (Array Section)
  | [] => .ok named
  | header :: rest =>
    match readString file names header.name sectionNameLimit with
    | .error _ => .error (.invalidSectionName header.name.toNat)
    | .ok name =>
      if isUniqueName name && named.any (·.name = name) then .error (.duplicateSection name)
      else nameSections file names (named.push { name, header }) rest

def readSections (file : ByteArray) (header : FileHeader) :
    Except LoadError (Array Section) := do
  let headers ← readSectionHeaders file header
  match headers[header.shstrndx.toNat]? with
  | none => .error (.invalidHeader .nameTableIndex)
  | some names =>
    if names.kind = stringTableKind then nameSections file names #[] headers.toList
    else .error (.invalidSection ".shstrtab" .notStringTable)

/-- Where the dynamic table lies in the file: the segment that holds it, or else the section. -/
def dynamicRange? (programHeaders : Array ProgramHeader) (sections : Array Section) :
    Option (Nat × Nat) :=
  match programHeaders.find? (·.kind = dynamicSegmentKind) with
  | some header => some (header.offset.toNat, header.filesz.toNat)
  | none =>
    (sections.find? (·.header.kind = dynamicSectionKind)).map fun dynamic =>
      (dynamic.header.offset.toNat, dynamic.header.size.toNat)

/-- The dynamic table; a file without one has no entries. -/
def readDynamic (file : ByteArray) (programHeaders : Array ProgramHeader)
    (sections : Array Section) : Except LoadError DynamicTable :=
  match dynamicRange? programHeaders sections with
  | none => .ok { entries := [] }
  | some (offset, size) =>
    if size % Record.size DynamicEntry ≠ 0 then .error (.invalidDynamic .tableSize)
    else
      match readTable DynamicEntry file offset size with
      | .error error => .error error
      | .ok entries => .ok { entries := entries.toList.takeWhile (·.tag ≠ 0) }

/-- The header of the section that is mapped at an address. -/
def sectionAt? (sections : Array Section) (address : UInt64) : Option SectionHeader :=
  (sections.find? fun candidate =>
    candidate.header.kind ≠ nullSectionKind && candidate.header.addr = address).map (·.header)

/-- File offset of the byte at an address, according to the segment that covers it, or else to
the section that begins there. -/
def fileOffset (programHeaders : Array ProgramHeader) (sections : Array Section)
    (address : UInt64) : Except LoadError Nat :=
  let covers (header : ProgramHeader) : Bool :=
    header.vaddr ≤ address && address.toNat < header.memoryStop
  match programHeaders.find? covers with
  | some header =>
    let offset := address.toNat - header.vaddr.toNat + header.offset.toNat
    if maxWord < offset then .error (.invalidDynamic .relocationOffsetOverflow)
    else .ok offset
  | none =>
    match sectionAt? sections address with
    | some header => .ok header.offset.toNat
    | none => .error (.invalidDynamic .relocationTableMissing)

/-- The relocations that the dynamic table points to. -/
def readRelocations (file : ByteArray) (programHeaders : Array ProgramHeader)
    (sections : Array Section) (dynamic : DynamicTable) : Except LoadError (List Relocation) := do
  let address := dynamic.value DynamicTable.relocationTag
  if address = 0 then
    return []
  let entrySize := (dynamic.value DynamicTable.relocationEntryTag).toNat
  if entrySize ≠ Record.size Relocation then
    throw (.invalidDynamic .relocationEntrySize)
  let size := (dynamic.value DynamicTable.relocationSizeTag).toNat
  if size = 0 ∨ size % Record.size Relocation ≠ 0 ∨ UInt32.size ≤ size then
    throw (.invalidDynamic .relocationTableSize)
  let offset ← fileOffset programHeaders sections address
  let table ← readTable Relocation file offset size
  return table.toList

/-- The dynamic symbols that the dynamic table points to. -/
def readSymbols (file : ByteArray) (sections : Array Section) (dynamic : DynamicTable) :
    Except LoadError (Array Symbol) := do
  let address := dynamic.value DynamicTable.symbolTableTag
  if address = 0 then
    return #[]
  match sectionAt? sections address with
  | none => throw (.invalidDynamic .symbolTableMissing)
  | some header =>
    if header.kind ≠ symbolTableKind ∧ header.kind ≠ dynamicSymbolsKind then
      throw (.invalidDynamic .notSymbolTable)
    if header.size.toNat % Record.size Symbol ≠ 0 then
      throw (.invalidDynamic .symbolTableSize)
    readTable Symbol file header.offset.toNat header.size.toNat

namespace Object

/-- Reads and checks the metadata of a file. -/
def ofFile (file : ByteArray) : Except LoadError Object := do
  if maxFileSize < file.size then
    throw (.fileTooLarge file.size)
  let header ← readRecord FileHeader file 0
  header.check
  let programHeaders ← readProgramHeaders file header
  let sections ← readSections file header
  match sections.findFinIdx? (·.name = textName) with
  | none => throw .missingText
  | some text =>
    let dynamic ← readDynamic file programHeaders sections
    let relocations ← readRelocations file programHeaders sections dynamic
    let symbols ← readSymbols file sections dynamic
    return {
      file, header, programHeaders, sections, text
      symbolNames := sections.findFinIdx? (·.name = symbolNamesName)
      dynamic, relocations, symbols }

def textSection (object : Object) : Section :=
  object.sections[object.text]

def isSbfV2 (object : Object) : Bool :=
  object.header.flags = sbfV2Flags

def symbol (object : Object) (index : UInt32) : Except LoadError Symbol :=
  match object.symbols[index.toNat]? with
  | some symbol => .ok symbol
  | none => .error (.invalidSymbol index.toNat)

def symbolName (object : Object) (symbol : Symbol) : Except LoadError String :=
  match object.symbolNames with
  | none => .error (.invalidString symbol.name.toNat)
  | some names =>
    readString object.file object.sections[names].header symbol.name symbolNameLimit

end Object

end SbfMachine.Elf
