import SbfMachine.Elf.Object
import SbfMachine.Event
import SbfMachine.Program.Calls

/-!
# Relocations

A relocation changes a few bytes of the image, because they depend on where something lies in
memory or on how a call is resolved. What a relocation does to the image is a list of patches;
they are computed and checked first and then written.

Addresses in a file count from the start of the image. An address that is too small to lie in the
program region is moved there.

## Main definitions

- `RelocationKind` — the kinds of relocations
- `Patch`, `Resolution` — what a relocation does
- `resolve` — finding that out
- `Linker.apply`, `Linker.applyAll` — doing it
-/

namespace SbfMachine.Link

open Elf

/-- What kind of place a relocation changes. -/
inductive RelocationKind
  | ignored
  /-- The 64-bit constant of a two-slot instruction: a symbol plus the constant. -/
  | abs64
  /-- An address without a symbol, in an instruction or in data. -/
  | relative
  /-- The target of a call: a function or a system call. -/
  | call
  deriving DecidableEq

def RelocationKind.ofNumber? (number : UInt32) : Option RelocationKind :=
  match number.toNat with
  | 0 => some .ignored
  | 1 => some .abs64
  | 8 => some .relative
  | 10 => some .call
  | _ => none

def RelocationKind.number : RelocationKind → UInt32
  | .ignored => 0
  | .abs64 => 1
  | .relative => 8
  | .call => 10

def functionSymbolKind : UInt8 := 2

/-- The immediate of the second slot of an instruction. -/
def secondImmediateOffset : Nat := slotSize + immediateOffset

def addressSize : Nat := 8

/-- A little-endian number of `width` bytes that is written into the image. -/
structure Patch where
  offset : Nat
  width : Nat
  value : UInt64
  deriving DecidableEq

def Patch.write (image : ByteArray) (patch : Patch) : ByteArray :=
  Bytes.writeLE image patch.offset patch.value patch.width

structure Resolution where
  patches : List Patch
  functions : FunctionTable
  counts : RelocationCounts

/-- The number of `width` bytes that stands `field` bytes behind the place of a relocation. -/
def fieldAt (image : ByteArray) (place field width : Nat) : Except LoadError UInt64 :=
  if place + field + width ≤ image.size then .ok (Bytes.readLE image (place + field) width)
  else .error (.relocationOutOfBounds place)

/-- Moves an address that counts from the start of the image into the program region. -/
def toProgramAddress (address : UInt64) : UInt64 :=
  if address < programBase then address + programBase else address

/-- The sum of two numbers, cut off at the largest word. -/
def addCutOff (a b : UInt64) : UInt64 :=
  UInt64.ofNat (min (a.toNat + b.toNat) maxWord)

/-- The patches that store an address in the immediates of a two-slot instruction. -/
def wideImmediatePatches (image : ByteArray) (place : Nat) (address : UInt64) :
    Except LoadError (List Patch) :=
  if place + 2 * slotSize ≤ image.size then
    .ok
      [{ offset := place + immediateOffset, width := immediateSize, value := address },
       { offset := place + secondImmediateOffset, width := immediateSize,
         value := address / 0x100000000 }]
  else .error (.relocationOutOfBounds place)

/-- The patch that stores a number in `width` bytes, `field` bytes behind the place of a
relocation. -/
def fieldPatch (image : ByteArray) (place field width : Nat) (value : UInt64) :
    Except LoadError (List Patch) :=
  if place + field + width ≤ image.size then
    .ok [{ offset := place + field, width, value }]
  else .error (.relocationOutOfBounds place)

/-- The address of a symbol plus the constant that the instruction holds. -/
def resolveAbs64 (object : Object) (image : ByteArray) (relocation : Relocation) :
    Except LoadError (List Patch) := do
  let place := relocation.offset.toNat
  let symbol ← object.symbol relocation.symbol
  let addend ← fieldAt image place immediateOffset immediateSize
  wideImmediatePatches image place (toProgramAddress (addCutOff symbol.value addend))

/-- The address that a two-slot instruction holds, moved into the program region. -/
def resolveRelativeInText (image : ByteArray) (place : Nat) : Except LoadError (List Patch) := do
  let low ← fieldAt image place immediateOffset immediateSize
  let high ← fieldAt image place secondImmediateOffset immediateSize
  let address := low + 0x100000000 * high
  if address = 0 then
    throw (.missingAddend place)
  wideImmediatePatches image place (toProgramAddress address)

/-- The address that eight bytes of data hold, moved into the program region. Before version 2
only four bytes of it are in the file, where an instruction would have its immediate. -/
def resolveRelativeInData (sbfV2 : Bool) (image : ByteArray) (place : Nat) :
    Except LoadError (List Patch) := do
  let address ←
    if sbfV2 then
      toProgramAddress <$> fieldAt image place 0 addressSize
    else
      (· + programBase) <$> fieldAt image place immediateOffset immediateSize
  fieldPatch image place 0 addressSize address

/-- The hash of the target of a call. A function symbol with an address names a function of the
text, which is entered in the function table; any other symbol names a system call. -/
def resolveTarget (text : TextRange) (functions : FunctionTable) (counts : RelocationCounts)
    (symbol : Symbol) (name : String) :
    Except LoadError (UInt32 × FunctionTable × RelocationCounts) :=
  let value := symbol.value.toNat
  if symbol.kind = functionSymbolKind ∧ value ≠ 0 then
    if text.contains value then
      match functions.register ((value - text.start) / slotSize) with
      | .error error => .error error
      | .ok (hash, functions) =>
        .ok (hash, functions, { counts with functions := counts.functions + 1 })
    else .error (.symbolOutOfBounds name value)
  else
    .ok (CallHash.ofName name, functions, { counts with syscalls := counts.syscalls + 1 })

def resolve (object : Object) (text : TextRange) (image : ByteArray) (functions : FunctionTable)
    (counts : RelocationCounts) (relocation : Relocation) : Except LoadError Resolution := do
  let place := relocation.offset.toNat
  match RelocationKind.ofNumber? relocation.kind with
  | none => throw (.unsupportedRelocation relocation.kind.toNat)
  | some .ignored => return { patches := [], functions, counts }
  | some .abs64 =>
    let patches ← resolveAbs64 object image relocation
    return { patches, functions, counts := { counts with abs64 := counts.abs64 + 1 } }
  | some .relative =>
    let patches ←
      if text.contains place then resolveRelativeInText image place
      else resolveRelativeInData object.isSbfV2 image place
    return { patches, functions, counts := { counts with relative := counts.relative + 1 } }
  | some .call =>
    let symbol ← object.symbol relocation.symbol
    let name ← object.symbolName symbol
    let (hash, functions, counts) ← resolveTarget text functions counts symbol name
    let patches ← fieldPatch image place immediateOffset immediateSize hash.toUInt64
    return { patches, functions, counts }

/-- An image that is being relocated. -/
structure Linker where
  image : ByteArray
  functions : FunctionTable
  counts : RelocationCounts

namespace Linker

def apply (object : Object) (text : TextRange) (linker : Linker) (relocation : Relocation) :
    Except LoadError Linker :=
  match resolve object text linker.image linker.functions linker.counts relocation with
  | .error error => .error error
  | .ok resolution =>
    .ok
      { image := resolution.patches.foldl Patch.write linker.image
        functions := resolution.functions
        counts := resolution.counts }

def applyAll (object : Object) (text : TextRange) (linker : Linker)
    (relocations : List Relocation) : Except LoadError Linker :=
  relocations.foldlM (apply object text) linker

end Linker

end SbfMachine.Link
