/-!
# Byte strings

The byte-level vocabulary of the library: reading and writing little-endian numbers in a
`ByteArray`, and replacing a window of one byte string by another.

## Main definitions

- `Bytes.byteAt`, `Bytes.setByte` — one byte, total in the index
- `Bytes.readLE`, `Bytes.writeLE`, `Bytes.pushLE` — little-endian numbers of a given width
- `Bytes.overwrite`, `Bytes.fill`, `Bytes.zeros` — windows

## Design notes

Every operation is total. Outside the byte string a read yields zero and a write does nothing;
the callers compare against `ByteArray.size` first, and that comparison is where an error arises.
Multi-byte numbers are written arithmetically (`b + 256 * rest`), so that their laws are facts
about natural numbers.
-/

namespace SbfMachine.Bytes

def zeros (n : Nat) : ByteArray :=
  n.repeat (fun bytes => bytes.push 0) (ByteArray.emptyWithCapacity n)

@[simp]
theorem size_zeros (n : Nat) : (zeros n).size = n := by
  have grow (start : ByteArray) (count : Nat) :
      (count.repeat (fun bytes => bytes.push 0) start).size = start.size + count := by
    induction count with
    | zero => rfl
    | succ count ih =>
      rw [Nat.repeat, ByteArray.size_push, ih]
      omega
  rw [zeros, grow]
  exact Nat.zero_add n

/-- The byte at `i`, zero past the end. -/
@[inline]
def byteAt (bytes : ByteArray) (i : Nat) : UInt8 :=
  if h : i < bytes.size then bytes[i] else 0

theorem byteAt_of_lt {bytes : ByteArray} {i : Nat} (h : i < bytes.size) :
    byteAt bytes i = bytes[i] := by
  simp [byteAt, h]

theorem byteAt_of_le {bytes : ByteArray} {i : Nat} (h : bytes.size ≤ i) :
    byteAt bytes i = 0 := by
  simp [byteAt, Nat.not_lt.2 h]

/-- Appending a byte adds it behind the others. -/
theorem byteAt_push (bytes : ByteArray) (value : UInt8) (i : Nat) :
    byteAt (bytes.push value) i = if i = bytes.size then value else byteAt bytes i := by
  by_cases inside : i < bytes.size
  · have after : i < (bytes.push value).size := by
      rw [ByteArray.size_push]
      omega
    rw [byteAt_of_lt after, byteAt_of_lt inside, if_neg (Nat.ne_of_lt inside)]
    exact Array.getElem_push_lt inside
  · by_cases last : i = bytes.size
    · have after : i < (bytes.push value).size := by
        rw [ByteArray.size_push]
        omega
      subst last
      rw [byteAt_of_lt after, if_pos rfl]
      exact Array.getElem_push_eq
    · have beyond := Nat.le_of_not_lt inside
      rw [byteAt_of_le beyond, if_neg last, byteAt_of_le]
      rw [ByteArray.size_push]
      omega

theorem byteAt_zeros (n i : Nat) : byteAt (zeros n) i = 0 := by
  have zero (start : ByteArray) (empty : byteAt start i = 0) (count : Nat) :
      byteAt (count.repeat (fun bytes => bytes.push 0) start) i = 0 := by
    induction count with
    | zero => exact empty
    | succ count ih =>
      rw [Nat.repeat, byteAt_push, ih]
      split <;> rfl
  exact zero _ (byteAt_of_le (show (ByteArray.emptyWithCapacity n).size ≤ i from Nat.zero_le i)) n

/-- Replaces the byte at `i`; past the end nothing changes. -/
@[inline]
def setByte (bytes : ByteArray) (i : Nat) (value : UInt8) : ByteArray :=
  if h : i < bytes.size then bytes.set i value h else bytes

@[simp]
theorem size_setByte (bytes : ByteArray) (i : Nat) (value : UInt8) :
    (setByte bytes i value).size = bytes.size := by
  unfold setByte
  split
  · exact Array.size_set ..
  · rfl

/-- Replacing a byte changes that byte alone. -/
theorem byteAt_setByte (bytes : ByteArray) (i j : Nat) (value : UInt8) :
    byteAt (setByte bytes i value) j =
      if i = j ∧ i < bytes.size then value else byteAt bytes j := by
  by_cases inside : i < bytes.size
  · by_cases bound : j < bytes.size
    · have after : j < (setByte bytes i value).size := by rwa [size_setByte]
      rw [byteAt_of_lt after, byteAt_of_lt bound]
      simp only [setByte, inside, dif_pos, and_true]
      by_cases same : i = j
      · subst same
        simp [ByteArray.getElem_eq_getElem_data, ByteArray.set]
      · rw [if_neg same]
        simp [ByteArray.getElem_eq_getElem_data, ByteArray.set, Array.getElem_set, same]
    · have beyond := Nat.le_of_not_lt bound
      rw [byteAt_of_le (by rwa [size_setByte]), byteAt_of_le beyond, if_neg]
      omega
  · simp [setByte, inside]

/-- The unsigned number stored in the `width` bytes from `start` on, least significant byte
first. -/
def readLE (bytes : ByteArray) (start : Nat) : (width : Nat) → UInt64
  | 0 => 0
  | width + 1 => (byteAt bytes start).toUInt64 + 256 * readLE bytes (start + 1) width

/-- Stores the low `width` bytes of `value` from `start` on, least significant byte first. -/
def writeLE (bytes : ByteArray) (start : Nat) (value : UInt64) : (width : Nat) → ByteArray
  | 0 => bytes
  | width + 1 => writeLE (setByte bytes start value.toUInt8) (start + 1) (value / 256) width

@[simp]
theorem size_writeLE (bytes : ByteArray) (start : Nat) (value : UInt64) (width : Nat) :
    (writeLE bytes start value width).size = bytes.size := by
  induction width generalizing bytes start value with
  | zero => rfl
  | succ width ih => rw [writeLE, ih, size_setByte]

/-- Appends the low `width` bytes of `value`, least significant byte first. -/
def pushLE (bytes : ByteArray) (value : UInt64) : (width : Nat) → ByteArray
  | 0 => bytes
  | width + 1 => pushLE (bytes.push value.toUInt8) (value / 256) width

@[simp]
theorem size_pushLE (bytes : ByteArray) (value : UInt64) (width : Nat) :
    (pushLE bytes value width).size = bytes.size + width := by
  induction width generalizing bytes value with
  | zero => rfl
  | succ width ih =>
    rw [pushLE, ih, ByteArray.size_push]
    omega

def encodeLE (value : UInt64) (width : Nat) : ByteArray :=
  pushLE (ByteArray.emptyWithCapacity width) value width

@[simp]
theorem size_encodeLE (value : UInt64) (width : Nat) : (encodeLE value width).size = width := by
  rw [encodeLE, size_pushLE]
  exact Nat.zero_add width

/-- Replaces the bytes of `target` from `start` on by `data`, as far as `target` reaches. -/
def overwrite (target : ByteArray) (start : Nat) (data : ByteArray) : ByteArray :=
  data.copySlice 0 target start (min data.size (target.size - start))

theorem byteAt_eq_getD (bytes : ByteArray) (i : Nat) : byteAt bytes i = bytes.data[i]?.getD 0 := by
  by_cases inside : i < bytes.size
  · rw [byteAt_of_lt inside, Array.getElem?_eq_getElem (show i < bytes.data.size from inside)]
    rfl
  · have beyond := Nat.le_of_not_lt inside
    rw [byteAt_of_le beyond, Array.getElem?_eq_none (show bytes.data.size ≤ i from beyond)]
    rfl

/-- Cutting a window out of a byte string shifts its bytes to the front. -/
theorem byteAt_extract (bytes : ByteArray) (start stop i : Nat) :
    byteAt (bytes.extract start stop) i =
      if start + i < stop then byteAt bytes (start + i) else 0 := by
  simp only [byteAt_eq_getD, ByteArray.data_extract, Array.getElem?_extract]
  by_cases inside : start + i < bytes.data.size
  · by_cases bound : start + i < stop
    · rw [if_pos (by omega), if_pos bound]
    · rw [if_neg (by omega), if_neg bound]
      rfl
  · rw [if_neg (by omega), Array.getElem?_eq_none (Nat.le_of_not_lt inside)]
    split <;> rfl

@[simp]
theorem size_overwrite (target : ByteArray) (start : Nat) (data : ByteArray) :
    (overwrite target start data).size = target.size := by
  simp only [overwrite, ByteArray.copySlice, ByteArray.size, Array.size_append, Array.size_extract]
  omega

/-- Overwriting replaces the bytes of the window that exist and no other. -/
theorem byteAt_overwrite (target data : ByteArray) (start i : Nat) :
    byteAt (overwrite target start data) i =
      if start ≤ i ∧ i < start + data.size ∧ i < target.size then byteAt data (i - start)
      else byteAt target i := by
  simp only [byteAt_eq_getD, overwrite, ByteArray.copySlice, ByteArray.size,
    Array.getElem?_append, Array.getElem?_extract, Array.size_append, Array.size_extract]
  grind

/-- Sets the `count` bytes from `start` on to `value`. -/
def fill (bytes : ByteArray) (start : Nat) (value : UInt8) : (count : Nat) → ByteArray
  | 0 => bytes
  | count + 1 => fill (setByte bytes start value) (start + 1) value count

@[simp]
theorem size_fill (bytes : ByteArray) (start : Nat) (value : UInt8) (count : Nat) :
    (fill bytes start value count).size = bytes.size := by
  induction count generalizing bytes start with
  | zero => rfl
  | succ count ih => rw [fill, ih, size_setByte]

/-- Filling a window sets the bytes of the window that exist and no other. -/
theorem byteAt_fill (bytes : ByteArray) (start i : Nat) (value : UInt8) (count : Nat) :
    byteAt (fill bytes start value count) i =
      if start ≤ i ∧ i < start + count ∧ i < bytes.size then value else byteAt bytes i := by
  induction count generalizing bytes start with
  | zero =>
    rw [fill, if_neg]
    omega
  | succ count ih =>
    rw [fill, ih, byteAt_setByte, size_setByte]
    by_cases later : start + 1 ≤ i ∧ i < start + 1 + count ∧ i < bytes.size
    · rw [if_pos later, if_pos (by omega)]
    · rw [if_neg later]
      by_cases first : start = i ∧ start < bytes.size
      · rw [if_pos first, if_pos (by omega)]
      · rw [if_neg first, if_neg (by omega)]

/-- `n` rounded up to a multiple of eight. -/
def align8 (n : Nat) : Nat :=
  (n + 7) / 8 * 8

/-- Appends zero bytes until the length is `size`; a longer byte string stays as it is. -/
def padTo (bytes : ByteArray) (size : Nat) : ByteArray :=
  bytes ++ zeros (size - bytes.size)

end SbfMachine.Bytes
