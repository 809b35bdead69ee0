import SbfMachine.AddressSpace
import SbfMachine.Elf.Record

/-!
# The layout of an ELF file

The rules that keep the parts of a file apart. The file header has to describe a shared object of
this machine; its two header tables, the segments and the sections with data must not overlap
what they must not overlap, and must lie inside the file.

## Main definitions

- `overlaps` — whether two ranges of the address space have a byte in common
- `FileHeader.check` — the rules for the file header
- `readProgramHeaders`, `readSectionHeaders` — the header tables, checked
-/

namespace SbfMachine.Elf

def bpfMachine : UInt16 := 247

def sharedObjectKind : UInt16 := 3

def loadSegmentKind : UInt32 := 1

/-- The kind of section 0, which is no section. -/
def nullSectionKind : UInt32 := 0

def noBitsSectionKind : UInt32 := 8

def fileHeaderSize : Nat := Record.size FileHeader

/-- The largest 64-bit number, at which ends of ranges are cut off. -/
def maxWord : Nat := UInt64.size - 1

/-- Whether the ranges of `aSize` bytes from `a` on and of `bSize` bytes from `b` on overlap. An
empty range overlaps nothing. -/
def overlaps (a aSize b bSize : Nat) : Bool :=
  aSize ≠ 0 && bSize ≠ 0 && a < min (b + bSize) maxWord && b < min (a + aSize) maxWord

namespace FileHeader

/-- The first sixteen bytes of a file: magic number, 64 bits, little-endian, version 1, and the
plain ABI. -/
def checkIdent (header : FileHeader) : Except LoadError Unit :=
  let byte := Bytes.byteAt header.ident
  if byte 0 ≠ 0x7f ∨ byte 1 ≠ 0x45 ∨ byte 2 ≠ 0x4c ∨ byte 3 ≠ 0x46 then
    .error (.invalidHeader .notElf)
  else if byte 4 ≠ 2 then .error (.incompatible .not64Bit)
  else if byte 5 ≠ 1 then .error (.incompatible .notLittleEndian)
  else if byte 6 ≠ 1 then .error (.incompatible .elfVersion)
  else if byte 7 ≠ 0 then .error (.incompatible .osAbi)
  else .ok ()

/-- The kind of file and the sizes of its records. -/
def checkFields (header : FileHeader) : Except LoadError Unit :=
  if header.machine ≠ bpfMachine then .error (.incompatible .machine)
  else if header.kind ≠ sharedObjectKind then .error (.incompatible .notSharedObject)
  else if header.version ≠ 1 then .error (.invalidHeader .version)
  else if header.ehsize.toNat ≠ Record.size FileHeader then .error (.invalidHeader .headerSize)
  else if header.phentsize.toNat ≠ Record.size ProgramHeader then
    .error (.invalidHeader .programHeaderSize)
  else if header.shentsize.toNat ≠ Record.size SectionHeader then
    .error (.invalidHeader .sectionHeaderSize)
  else if header.shnum ≤ header.shstrndx then .error (.invalidHeader .nameTableIndex)
  else .ok ()

def programTable (header : FileHeader) : Nat :=
  header.phoff.toNat

def programTableSize (header : FileHeader) : Nat :=
  header.phnum.toNat * Record.size ProgramHeader

def sectionTable (header : FileHeader) : Nat :=
  header.shoff.toNat

def sectionTableSize (header : FileHeader) : Nat :=
  header.shnum.toNat * Record.size SectionHeader

def overlapsProgramTable (header : FileHeader) (offset size : Nat) : Bool :=
  overlaps header.programTable header.programTableSize offset size

def overlapsSectionTable (header : FileHeader) (offset size : Nat) : Bool :=
  overlaps header.sectionTable header.sectionTableSize offset size

/-- The two header tables come after the file header and do not overlap. -/
def checkTables (header : FileHeader) : Except LoadError Unit :=
  if header.programTable < fileHeaderSize ∨ header.sectionTable < fileHeaderSize ∨
      header.overlapsProgramTable header.sectionTable header.sectionTableSize then
    .error .overlappingTables
  else .ok ()

def check (header : FileHeader) : Except LoadError Unit := do
  header.checkIdent
  header.checkFields
  header.checkTables

end FileHeader

namespace ProgramHeader

def isLoad (header : ProgramHeader) : Bool :=
  header.kind = loadSegmentKind

def memoryStop (header : ProgramHeader) : Nat :=
  header.vaddr.toNat + header.memsz.toNat

/-- What is wrong with a loadable segment that follows the loadable segment `previous`. -/
def flaw? (fileSize : Nat) (file : FileHeader) (previous : Option ProgramHeader)
    (header : ProgramHeader) : Option SegmentFlaw :=
  let offset := header.offset.toNat
  let size := header.filesz.toNat
  if previous.any fun previous => header.vaddr ≤ previous.vaddr then some .notAscending
  else if previous.any fun previous => header.vaddr.toNat < previous.memoryStop then
    some .overlapsPrevious
  else if fileSize < offset + size then some .outOfBounds
  else if overlaps 0 fileHeaderSize offset size then some .overlapsFileHeader
  else if file.overlapsProgramTable offset size then some .overlapsProgramHeaders
  else if file.overlapsSectionTable offset size then some .overlapsSectionHeaders
  else if stackBase.toNat < programBase.toNat + header.memoryStop then
    some .outsideProgramRegion
  else none

end ProgramHeader

/-- Checks the loadable segments among program headers, the first of which has number `index`
and follows the loadable segment `previous`. -/
def checkSegments (fileSize : Nat) (file : FileHeader) (index : Nat)
    (previous : Option ProgramHeader) : List ProgramHeader → Except LoadError Unit
  | [] => .ok ()
  | header :: rest =>
    if header.isLoad then
      match header.flaw? fileSize file previous with
      | some flaw => .error (.invalidSegment index flaw)
      | none => checkSegments fileSize file (index + 1) (some header) rest
    else checkSegments fileSize file (index + 1) previous rest

/-- The program headers of a file. Loadable segments are in ascending order of their addresses
and do not overlap; their data is inside the file and clear of all headers, and their memory
inside the program region. -/
def readProgramHeaders (file : ByteArray) (header : FileHeader) :
    Except LoadError (Array ProgramHeader) := do
  let headers ← readTable ProgramHeader file header.programTable header.programTableSize
  checkSegments file.size header 0 none headers.toList
  return headers

namespace SectionHeader

def hasData (header : SectionHeader) : Bool :=
  header.kind ≠ noBitsSectionKind

/-- What is wrong with a section with data that comes behind file offset `dataEnd`. -/
def flaw? (fileSize : Nat) (file : FileHeader) (dataEnd : Nat) (header : SectionHeader) :
    Option SectionFlaw :=
  let offset := header.offset.toNat
  let size := header.size.toNat
  if maxWord < header.stop then some .endOverflow
  else if offset < fileHeaderSize then some .overlapsFileHeader
  else if file.overlapsProgramTable offset size then some .overlapsProgramHeaders
  else if file.overlapsSectionTable offset size then some .overlapsSectionHeaders
  else if fileSize < header.stop then some .outOfBounds
  else if size ≠ 0 ∧ (offset < dataEnd ∨ file.sectionTable < header.stop) then some .notInOrder
  else none

end SectionHeader

def sectionError (index : Nat) (flaw : SectionFlaw) : LoadError :=
  .invalidSection s!"#{index}" flaw

/-- Checks section headers, the first of which has number `index`; the data of the sections
before it ends at `dataEnd`. -/
def checkSections (fileSize : Nat) (file : FileHeader) (index dataEnd : Nat) :
    List SectionHeader → Except LoadError Unit
  | [] => .ok ()
  | header :: rest =>
    if header.hasData then
      match header.flaw? fileSize file dataEnd with
      | some flaw => .error (sectionError index flaw)
      | none =>
        let dataEnd := if header.size = 0 then dataEnd else header.stop
        checkSections fileSize file (index + 1) dataEnd rest
    else checkSections fileSize file (index + 1) dataEnd rest

/-- Checks a section header table, which begins with the header of no section. -/
def checkSectionTable (fileSize : Nat) (file : FileHeader) :
    List SectionHeader → Except LoadError Unit
  | [] => .error (sectionError 0 .missingNull)
  | first :: rest =>
    if first.kind = nullSectionKind then checkSections fileSize file 1 0 rest
    else .error (sectionError 0 .firstNotNull)

/-- The section headers of a file. Sections with data are in ascending order, inside the file,
before the section header table and clear of the other headers. -/
def readSectionHeaders (file : ByteArray) (header : FileHeader) :
    Except LoadError (Array SectionHeader) := do
  let headers ← readTable SectionHeader file header.sectionTable header.sectionTableSize
  checkSectionTable file.size header headers.toList
  return headers

end SbfMachine.Elf
