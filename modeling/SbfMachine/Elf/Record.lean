import SbfMachine.Bytes
import SbfMachine.LoadError

/-!
# Records and strings of an ELF file

The fixed-size little-endian records that an ELF file for 64-bit machines is made of, and how
they are read from a byte string. Names stand in sections of their own, as UTF-8 text that a zero
byte ends.

## Main definitions

- `FileHeader`, `ProgramHeader`, `SectionHeader`, `DynamicEntry`, `Relocation`, `Symbol` — the
  records
- `Record` — size, name, decoding and encoding of a kind of record
- `readRecord`, `readTable` — one record, and a table of records
- `readString` — the string at an offset of a string table
-/

namespace SbfMachine.Elf

structure FileHeader where
  /-- Magic number, class, byte order, version and ABI, sixteen bytes in all. -/
  ident : ByteArray
  kind : UInt16
  machine : UInt16
  version : UInt32
  entry : UInt64
  phoff : UInt64
  shoff : UInt64
  flags : UInt32
  ehsize : UInt16
  phentsize : UInt16
  phnum : UInt16
  shentsize : UInt16
  shnum : UInt16
  /-- Index of the section with the section names. -/
  shstrndx : UInt16

/-- A segment: a part of the file and its place in memory. -/
structure ProgramHeader where
  kind : UInt32
  flags : UInt32
  offset : UInt64
  vaddr : UInt64
  paddr : UInt64
  filesz : UInt64
  memsz : UInt64
  align : UInt64
  deriving DecidableEq

/-- A section: a named part of the file. -/
structure SectionHeader where
  /-- Offset of the name in the section with the section names. -/
  name : UInt32
  kind : UInt32
  flags : UInt64
  addr : UInt64
  offset : UInt64
  size : UInt64
  link : UInt32
  info : UInt32
  addralign : UInt64
  entsize : UInt64
  deriving DecidableEq

/-- A tagged value of the dynamic table. -/
structure DynamicEntry where
  tag : UInt64
  value : UInt64
  deriving DecidableEq

/-- A place of the image that depends on where something else lies. -/
structure Relocation where
  offset : UInt64
  info : UInt64
  deriving DecidableEq

structure Symbol where
  /-- Offset of the name in the string table. -/
  name : UInt32
  info : UInt8
  other : UInt8
  shndx : UInt16
  value : UInt64
  size : UInt64
  deriving DecidableEq

namespace SectionHeader

/-- File offset behind the section, as an exact number. -/
def stop (header : SectionHeader) : Nat :=
  header.offset.toNat + header.size.toNat

end SectionHeader

namespace Relocation

def kind (relocation : Relocation) : UInt32 :=
  relocation.info.toUInt32

def symbol (relocation : Relocation) : UInt32 :=
  (relocation.info / 0x100000000).toUInt32

end Relocation

namespace Symbol

/-- What a symbol stands for: the low half of its info. -/
def kind (symbol : Symbol) : UInt8 :=
  symbol.info % 16

end Symbol

/-- A kind of record with a fixed size. -/
class Record (α : Type) where
  size : Nat
  /-- What an error calls the record. -/
  item : Item
  /-- The record whose bytes start at an offset. -/
  decode : ByteArray → Nat → α
  /-- Appends the bytes of a record. -/
  append : ByteArray → α → ByteArray

def u8At (bytes : ByteArray) (offset : Nat) : UInt8 :=
  Bytes.byteAt bytes offset

def u16At (bytes : ByteArray) (offset : Nat) : UInt16 :=
  (Bytes.readLE bytes offset 2).toUInt16

def u32At (bytes : ByteArray) (offset : Nat) : UInt32 :=
  (Bytes.readLE bytes offset 4).toUInt32

def u64At (bytes : ByteArray) (offset : Nat) : UInt64 :=
  Bytes.readLE bytes offset 8

def pushU8 (bytes : ByteArray) (value : UInt8) : ByteArray :=
  bytes.push value

def pushU16 (bytes : ByteArray) (value : UInt16) : ByteArray :=
  Bytes.pushLE bytes value.toUInt64 2

def pushU32 (bytes : ByteArray) (value : UInt32) : ByteArray :=
  Bytes.pushLE bytes value.toUInt64 4

def pushU64 (bytes : ByteArray) (value : UInt64) : ByteArray :=
  Bytes.pushLE bytes value 8

instance : Record FileHeader where
  size := 64
  item := .fileHeader
  decode bytes base :=
    { ident := bytes.extract base (base + 16)
      kind := u16At bytes (base + 16)
      machine := u16At bytes (base + 18)
      version := u32At bytes (base + 20)
      entry := u64At bytes (base + 24)
      phoff := u64At bytes (base + 32)
      shoff := u64At bytes (base + 40)
      flags := u32At bytes (base + 48)
      ehsize := u16At bytes (base + 52)
      phentsize := u16At bytes (base + 54)
      phnum := u16At bytes (base + 56)
      shentsize := u16At bytes (base + 58)
      shnum := u16At bytes (base + 60)
      shstrndx := u16At bytes (base + 62) }
  append bytes record :=
    let bytes := bytes ++ record.ident
    let bytes := pushU16 bytes record.kind
    let bytes := pushU16 bytes record.machine
    let bytes := pushU32 bytes record.version
    let bytes := pushU64 bytes record.entry
    let bytes := pushU64 bytes record.phoff
    let bytes := pushU64 bytes record.shoff
    let bytes := pushU32 bytes record.flags
    let bytes := pushU16 bytes record.ehsize
    let bytes := pushU16 bytes record.phentsize
    let bytes := pushU16 bytes record.phnum
    let bytes := pushU16 bytes record.shentsize
    let bytes := pushU16 bytes record.shnum
    pushU16 bytes record.shstrndx

instance : Record ProgramHeader where
  size := 56
  item := .programHeader
  decode bytes base :=
    { kind := u32At bytes base
      flags := u32At bytes (base + 4)
      offset := u64At bytes (base + 8)
      vaddr := u64At bytes (base + 16)
      paddr := u64At bytes (base + 24)
      filesz := u64At bytes (base + 32)
      memsz := u64At bytes (base + 40)
      align := u64At bytes (base + 48) }
  append bytes record :=
    let bytes := pushU32 bytes record.kind
    let bytes := pushU32 bytes record.flags
    let bytes := pushU64 bytes record.offset
    let bytes := pushU64 bytes record.vaddr
    let bytes := pushU64 bytes record.paddr
    let bytes := pushU64 bytes record.filesz
    let bytes := pushU64 bytes record.memsz
    pushU64 bytes record.align

instance : Record SectionHeader where
  size := 64
  item := .sectionHeader
  decode bytes base :=
    { name := u32At bytes base
      kind := u32At bytes (base + 4)
      flags := u64At bytes (base + 8)
      addr := u64At bytes (base + 16)
      offset := u64At bytes (base + 24)
      size := u64At bytes (base + 32)
      link := u32At bytes (base + 40)
      info := u32At bytes (base + 44)
      addralign := u64At bytes (base + 48)
      entsize := u64At bytes (base + 56) }
  append bytes record :=
    let bytes := pushU32 bytes record.name
    let bytes := pushU32 bytes record.kind
    let bytes := pushU64 bytes record.flags
    let bytes := pushU64 bytes record.addr
    let bytes := pushU64 bytes record.offset
    let bytes := pushU64 bytes record.size
    let bytes := pushU32 bytes record.link
    let bytes := pushU32 bytes record.info
    let bytes := pushU64 bytes record.addralign
    pushU64 bytes record.entsize

instance : Record DynamicEntry where
  size := 16
  item := .dynamicEntry
  decode bytes base :=
    { tag := u64At bytes base
      value := u64At bytes (base + 8) }
  append bytes record :=
    let bytes := pushU64 bytes record.tag
    pushU64 bytes record.value

instance : Record Relocation where
  size := 16
  item := .relocation
  decode bytes base :=
    { offset := u64At bytes base
      info := u64At bytes (base + 8) }
  append bytes record :=
    let bytes := pushU64 bytes record.offset
    pushU64 bytes record.info

instance : Record Symbol where
  size := 24
  item := .symbol
  decode bytes base :=
    { name := u32At bytes base
      info := u8At bytes (base + 4)
      other := u8At bytes (base + 5)
      shndx := u16At bytes (base + 6)
      value := u64At bytes (base + 8)
      size := u64At bytes (base + 16) }
  append bytes record :=
    let bytes := pushU32 bytes record.name
    let bytes := pushU8 bytes record.info
    let bytes := pushU8 bytes record.other
    let bytes := pushU16 bytes record.shndx
    let bytes := pushU64 bytes record.value
    pushU64 bytes record.size

def encodeTable {α : Type} [Record α] (records : List α) : ByteArray :=
  records.foldl Record.append ByteArray.empty

def readRecord (α : Type) [Record α] (file : ByteArray) (offset : Nat) : Except LoadError α :=
  if offset + Record.size α ≤ file.size then .ok (Record.decode file offset)
  else .error (.truncated (Record.item α) offset)

/-- The records of a table of `size` bytes at an offset. -/
def readTable (α : Type) [Record α] (file : ByteArray) (offset size : Nat) :
    Except LoadError (Array α) :=
  if offset + size ≤ file.size ∧ size % Record.size α = 0 then
    .ok (Array.ofFn fun i : Fin (size / Record.size α) =>
      Record.decode file (offset + Record.size α * i))
  else .error (.truncated (Record.item α) offset)

/-- The kind of the sections that hold strings. -/
def stringTableKind : UInt32 := 3

/-- The number of bytes before the first zero byte, if it is among the `limit` bytes from
`start` on. -/
def lengthBeforeZero? (bytes : ByteArray) (start : Nat) : (limit : Nat) → Option Nat
  | 0 => none
  | limit + 1 =>
    if Bytes.byteAt bytes start = 0 then some 0
    else (lengthBeforeZero? bytes (start + 1) limit).map (· + 1)

/-- The string at an offset of a string table. The zero byte that ends it must be among the
first `limit` bytes and inside both the table and the file. -/
def readString (file : ByteArray) (table : SectionHeader) (offset : UInt32) (limit : Nat) :
    Except LoadError String :=
  let start := table.offset.toNat + offset.toNat
  let stop := min table.stop (start + limit)
  if table.kind = stringTableKind ∧ offset.toNat < table.size.toNat ∧
      table.stop < UInt64.size ∧ stop ≤ file.size then
    let name? := (lengthBeforeZero? file start (stop - start)).bind fun length =>
      String.fromUTF8? (file.extract start (start + length))
    match name? with
    | some name => .ok name
    | none => .error (.invalidString offset.toNat)
  else .error (.invalidString offset.toNat)

end SbfMachine.Elf
