import SbfMachine.Elf.Object
import SbfMachine.Program.Calls

/-!
# Program images

The image of a program holds its instructions and constants at the offsets that they have in the
file. Everything else in the image is zero, and the image ends with the last of them.

## Main definitions

- `Extent` — a range of the file that is copied
- `mappedExtents` — the ranges of all sections that belong to the image, checked
- `textRange` — where the text lies
- `copyImage` — the image
-/

namespace SbfMachine.Link

open Elf

/-- The names of the sections that belong to the image. -/
def mappedNames : List String :=
  [".text", ".rodata", ".data.rel.ro", ".eh_frame"]

/-- A range of the file. -/
structure Extent where
  start : Nat
  stop : Nat
  deriving DecidableEq

namespace Extent

/-- The range of a section. -/
def ofSection (header : SectionHeader) : Extent where
  start := header.offset.toNat
  stop := header.stop

/-- Whether a range has no byte. -/
def isEmpty (extent : Extent) : Bool :=
  extent.stop ≤ extent.start

/-- Whether two ranges have a byte in common, for ranges that are not empty. -/
def overlaps (a b : Extent) : Bool :=
  a.start < b.stop && b.start < a.stop

end Extent

/-- The rules for the place of a section in memory: its address is its file offset, and it lies
inside the program region. -/
def checkPlacement (fileSize : Nat) (candidate : Elf.Section) : Except LoadError Unit :=
  let header := candidate.header
  if fileSize < header.size.toNat then .error (.truncated .sectionData header.offset.toNat)
  else if header.addr ≠ header.offset then
    .error (.invalidSection candidate.name .addressNotOffset)
  else if stackBase.toNat < programBase.toNat + header.addr.toNat + header.size.toNat then
    .error (.invalidSection candidate.name .addressOutOfBounds)
  else .ok ()

/-- Adds a section of the image to the ranges that are copied. -/
def mapSection (fileSize : Nat) (mapped : List Extent) (candidate : Elf.Section) :
    Except LoadError (List Extent) :=
  match checkPlacement fileSize candidate with
  | .error error => .error error
  | .ok () =>
    let extent := Extent.ofSection candidate.header
    if extent.isEmpty then .ok mapped
    else if mapped.any fun other => other.overlaps extent then
      .error (.invalidSection candidate.name .overlapsSection)
    else if fileSize < extent.stop then .error (.truncated .sectionData extent.start)
    else .ok (mapped ++ [extent])

/-- The ranges of all sections that belong to the image, in the order of the sections. -/
def mappedExtents (object : Object) : Except LoadError (List Extent) :=
  (object.sections.toList.filter fun candidate => mappedNames.contains candidate.name).foldlM
    (mapSection object.file.size) []

/-- Where the text lies in the file and in the image. It is not empty and consists of whole
slots. -/
def textRange (object : Object) : Except LoadError TextRange :=
  match checkPlacement object.file.size object.textSection with
  | .error error => .error error
  | .ok () =>
    let header := object.textSection.header
    if header.size = 0 ∨ header.size.toNat % slotSize ≠ 0 then
      .error (.invalidTextSize header.size.toNat)
    else .ok { start := header.offset.toNat, stop := header.stop }

/-- Copies a range of the file to the same place of the image. -/
def copyExtent (file image : ByteArray) (extent : Extent) : ByteArray :=
  file.copySlice extent.start image extent.start (extent.stop - extent.start)

/-- The bytes of an image: the given ranges of the file, and zero elsewhere. -/
def imageOf (file : ByteArray) (extents : List Extent) : ByteArray :=
  let size := extents.foldl (fun size extent => max size extent.stop) 0
  extents.foldl (copyExtent file) (Bytes.zeros size)

/-- The image of an object and the place of its text, before anything is linked. -/
def copyImage (object : Object) : Except LoadError (ByteArray × TextRange) := do
  let text ← textRange object
  let extents ← mappedExtents object
  return (imageOf object.file extents, text)

end SbfMachine.Link
