import SbfMachine.Text.Literals

/-!
# Why a program cannot be loaded

The causes that make a file or a text no program, each with the place it was found at.

## Main definitions

- `LoadError` — the causes
- `HeaderFlaw`, `Incompatibility`, `SegmentFlaw`, `SectionFlaw`, `DynamicFlaw`, `Item` — their
  details
- `LoadError.message` — the wording
-/

namespace SbfMachine

/-- The part of a file that was being read when the file ended. -/
inductive Item
  | fileHeader
  | programHeader
  | sectionHeader
  | dynamicEntry
  | relocation
  | symbol
  | sectionData
  deriving DecidableEq

/-- What is malformed about a file header. -/
inductive HeaderFlaw
  | notElf
  | version
  | headerSize
  | programHeaderSize
  | sectionHeaderSize
  | nameTableIndex
  deriving DecidableEq

/-- Why a well-formed file is for another machine or purpose. -/
inductive Incompatibility
  | not64Bit
  | notLittleEndian
  | elfVersion
  | osAbi
  | machine
  | notSharedObject
  deriving DecidableEq

/-- What is wrong with a loadable segment. -/
inductive SegmentFlaw
  | notAscending
  | overlapsPrevious
  | outOfBounds
  | overlapsFileHeader
  | overlapsProgramHeaders
  | overlapsSectionHeaders
  | outsideProgramRegion
  deriving DecidableEq

/-- What is wrong with a section. -/
inductive SectionFlaw
  | missingNull
  | firstNotNull
  | endOverflow
  | overlapsFileHeader
  | overlapsProgramHeaders
  | overlapsSectionHeaders
  | outOfBounds
  | notInOrder
  | notStringTable
  | addressNotOffset
  | addressOutOfBounds
  | overlapsSection
  deriving DecidableEq

/-- What is wrong with the dynamic table or with something that it points to. -/
inductive DynamicFlaw
  | tableSize
  | relocationEntrySize
  | relocationTableSize
  | relocationOffsetOverflow
  | relocationTableMissing
  | symbolTableMissing
  | notSymbolTable
  | symbolTableSize
  deriving DecidableEq

/-- A cause that makes a file or a text no program. -/
inductive LoadError
  | fileTooLarge (size : Nat)
  /-- The file ends within the item at the given offset. -/
  | truncated (item : Item) (offset : Nat)
  | invalidHeader (flaw : HeaderFlaw)
  | incompatible (reason : Incompatibility)
  | overlappingTables
  | invalidSegment (index : Nat) (flaw : SegmentFlaw)
  | invalidSection (name : String) (flaw : SectionFlaw)
  | invalidSectionName (offset : Nat)
  | duplicateSection (name : String)
  | missingText
  | invalidTextSize (size : Nat)
  | invalidDynamic (flaw : DynamicFlaw)
  | invalidString (offset : Nat)
  | relocationOutOfBounds (offset : Nat)
  | unsupportedRelocation (kind : Nat)
  | invalidSymbol (index : Nat)
  | symbolOutOfBounds (name : String) (value : Nat)
  | callOutOfBounds (pc : Nat) (target : Int)
  /-- Another function has the hash of the function at slot `pc`. -/
  | hashCollision (hash : UInt32) (pc : Nat)
  /-- A relative relocation of a null pointer. -/
  | missingAddend (offset : Nat)
  | invalidEntrypoint (address : Nat)
  deriving DecidableEq

/-- The name of an item. -/
def Item.message : Item → String
  | .fileHeader => "file header"
  | .programHeader => "program header"
  | .sectionHeader => "section header"
  | .dynamicEntry => "dynamic entry"
  | .relocation => "relocation"
  | .symbol => "symbol"
  | .sectionData => "section data"

/-- The wording of a flaw of the file header. -/
def HeaderFlaw.message : HeaderFlaw → String
  | .notElf => "not an ELF file"
  | .version => "unsupported e_version"
  | .headerSize => "invalid e_ehsize"
  | .programHeaderSize => "invalid e_phentsize"
  | .sectionHeaderSize => "invalid e_shentsize"
  | .nameTableIndex => "invalid e_shstrndx"

/-- The wording of an incompatibility. -/
def Incompatibility.message : Incompatibility → String
  | .not64Bit => "not a 64-bit ELF"
  | .notLittleEndian => "not little-endian"
  | .elfVersion => "unsupported ELF version"
  | .osAbi => "unsupported OS ABI"
  | .machine => "machine is not BPF"
  | .notSharedObject => "not a shared object"

/-- The wording of a flaw of a segment. -/
def SegmentFlaw.message : SegmentFlaw → String
  | .notAscending => "PT_LOAD segments not in ascending order"
  | .overlapsPrevious => "overlaps with previous segment"
  | .outOfBounds => "segment out of bounds"
  | .overlapsFileHeader => "overlaps with file header"
  | .overlapsProgramHeaders => "overlaps with program header table"
  | .overlapsSectionHeaders => "overlaps with section header table"
  | .outsideProgramRegion => "segment outside of program region"

/-- The wording of a flaw of a section. -/
def SectionFlaw.message : SectionFlaw → String
  | .missingNull => "missing null section"
  | .firstNotNull => "section 0 is not SHT_NULL"
  | .endOverflow => "integer overflow"
  | .overlapsFileHeader => "overlaps with file header"
  | .overlapsProgramHeaders => "overlaps with program header table"
  | .overlapsSectionHeaders => "overlaps with section header table"
  | .outOfBounds => "out of bounds"
  | .notInOrder => "sections not in order"
  | .notStringTable => "not a string table"
  | .addressNotOffset => "section physical address out-of-place"
  | .addressOutOfBounds => "section virtual address out-of-bounds"
  | .overlapsSection => "overlaps with another section"

/-- The wording of a flaw of the dynamic table. -/
def DynamicFlaw.message : DynamicFlaw → String
  | .tableSize => "odd .dynamic size"
  | .relocationEntrySize => "invalid DT_RELENT"
  | .relocationTableSize => "invalid DT_RELSZ"
  | .relocationOffsetOverflow => "relocation table offset overflow"
  | .relocationTableMissing => "cannot find physical address of relocation table"
  | .symbolTableMissing => "cannot find DT_SYMTAB section"
  | .notSymbolTable => "DT_SYMTAB is not a symbol table"
  | .symbolTableSize => "misaligned symbol table"

/-- The wording of a cause. -/
def LoadError.message : LoadError → String
  | .fileTooLarge size => s!"file too large ({size} bytes)"
  | .truncated item offset =>
    s!"unexpected end of file reading {item.message} at {Text.hex offset}"
  | .invalidHeader flaw => s!"malformed ELF header: {flaw.message}"
  | .incompatible reason => s!"incompatible binary: {reason.message}"
  | .overlappingTables => "overlapping ELF header tables"
  | .invalidSegment index flaw => s!"invalid program header {index}: {flaw.message}"
  | .invalidSection name flaw => s!"invalid section {Text.quote name}: {flaw.message}"
  | .invalidSectionName offset =>
    s!"invalid section name at string table offset {Text.hex offset}"
  | .duplicateSection name => s!"duplicate section {name}"
  | .missingText => "missing .text section"
  | .invalidTextSize size => s!"invalid .text size {size}"
  | .invalidDynamic flaw => s!"invalid dynamic table: {flaw.message}"
  | .invalidString offset => s!"invalid string at offset {Text.hex offset}"
  | .relocationOutOfBounds offset => s!"relocation offset {Text.hex offset} out of bounds"
  | .unsupportedRelocation kind => s!"unsupported relocation type {kind}"
  | .invalidSymbol index => s!"invalid symbol index {index}"
  | .symbolOutOfBounds name value =>
    s!"symbol {Text.quote name} at {Text.hex value} is outside of .text"
  | .callOutOfBounds pc target => s!"call at slot {pc} targets slot {target} outside of .text"
  | .hashCollision hash pc =>
    s!"function hash {Text.hexPadded 8 hash.toNat} collides for slot {pc}"
  | .missingAddend offset => s!"relative relocation at {Text.hex offset} has no addend"
  | .invalidEntrypoint address => s!"invalid entrypoint {Text.hex address}"

end SbfMachine
