import SbfMachine.Proofs.Bytes.Parts
import SbfMachine.Proofs.Memory.ByteMap

/-!
# Accesses that a change of the memory has no part in

A program sees the memory through its accesses only. If an access has the same place in a changed
memory, finds the same bytes there, and what it writes comes to the same whether it is written
before or after the change, then it does not notice the change. That is so for two changes: another
program image, for accesses that are not directed to the image, and a longer heap and input, for
accesses that are not refused.

## Main definitions

- `Access` — an access and the memory that it finds
- `Access.Ignores` — the access does not notice a change of the memory
- `Memory.withProgram`, `Memory.enlarge` — the two changes

## Main statements

- `Access.Ignores.readWord`, `Access.Ignores.store` — numbers that are read and stored in the
  changed memory
- `Access.ignores_withProgram`, `Access.ignores_withProgram_of_write` — accesses outside the
  program region and writes ignore another image
- `Access.ignores_enlarge` — accesses that are not refused ignore bytes behind heap and input
-/

namespace SbfMachine

/-- An access to the `size` bytes from an address on. -/
structure Access where
  /-- The memory that the access finds. -/
  memory : Memory
  address : UInt64
  size : Nat
  write : Bool

namespace Access

/-- The place of an access, or the fault that it is refused with. -/
def place (access : Access) : Except Fault Window :=
  access.memory.window access.address access.size access.write

theorem size_of_place {memory : Memory} {address : UInt64} {size : Nat} {write : Bool}
    {window : Window} (h : memory.window address size write = .ok window) : window.size = size :=
  (Memory.locate_eq_ok_iff.1 (Memory.window_eq_ok_iff.1 h)).2.2.2

/-- The access does not notice that its memory is changed. -/
structure Ignores (change : Memory → Memory) (access : Access) : Prop where
  place : (change access.memory).window access.address access.size access.write = access.place
  extract : ∀ window, access.place = .ok window →
    (change access.memory).extract window = access.memory.extract window
  overwrite : ∀ window data, access.place = .ok window → data.size = window.size →
    (change access.memory).overwrite window data = change (access.memory.overwrite window data)

end Access

-- ════════════════════════════════════════════════════════════════════════
-- Access to the changed memory
-- ════════════════════════════════════════════════════════════════════════

namespace Memory

/-- Storing a number in a window replaces its bytes. -/
theorem store_eq_overwrite (memory : Memory) (window : Window) (value : UInt64) :
    memory.store window value = memory.overwrite window (Bytes.encodeLE value window.size) := by
  simp only [store, overwrite, Bytes.writeLE_eq_overwrite]

/-- Filling a window replaces its bytes. -/
theorem fillWindow_eq_overwrite (memory : Memory) (window : Window) (value : UInt8) :
    memory.fillWindow window value =
      memory.overwrite window (Bytes.fill (Bytes.zeros window.size) 0 value window.size) := by
  simp only [fillWindow, overwrite, ← Bytes.fill_eq_overwrite]

end Memory

namespace Access.Ignores

variable {change : Memory → Memory} {memory : Memory} {address : UInt64} {size : Nat}

theorem read (h : Ignores change ⟨memory, address, size, false⟩) :
    (change memory).read address size = memory.read address size := by
  have hplace := h.place
  rw [Access.place] at hplace
  dsimp only at hplace
  unfold Memory.read
  rw [hplace]
  cases hwindow : memory.window address size false with
  | error => rfl
  | ok window => exact congrArg Except.ok (h.extract window hwindow)

theorem readWord {width : Width} (h : Ignores change ⟨memory, address, width.bytes, false⟩) :
    (change memory).readWord width address = memory.readWord width address := by
  rw [Memory.readWord_eq_read, Memory.readWord_eq_read, h.read]

section Write

variable (h : Ignores change ⟨memory, address, size, true⟩) {window : Window}
  (hwindow : memory.window address size true = .ok window)
include h hwindow

theorem store (value : UInt64) :
    (change memory).store window value = change (memory.store window value) := by
  rw [Memory.store_eq_overwrite, Memory.store_eq_overwrite]
  exact h.overwrite window _ hwindow (Bytes.size_encodeLE value window.size)

theorem fillWindow (value : UInt8) :
    (change memory).fillWindow window value = change (memory.fillWindow window value) := by
  rw [Memory.fillWindow_eq_overwrite, Memory.fillWindow_eq_overwrite]
  exact h.overwrite window _ hwindow (by rw [Bytes.size_fill, Bytes.size_zeros])

end Write

end Access.Ignores

-- ════════════════════════════════════════════════════════════════════════
-- Another image
-- ════════════════════════════════════════════════════════════════════════

/-- The memory with another program image. -/
def Memory.withProgram (memory : Memory) (image : ByteArray) : Memory :=
  { memory with program := image }

theorem Memory.bytes_withProgram (memory : Memory) (image : ByteArray) {region : Region}
    (h : region ≠ .program) : (memory.withProgram image).bytes region = memory.bytes region := by
  cases region with
  | program => exact absurd rfl h
  | stack | heap | input => rfl

/-- An access that does not begin in the program region never gets to the image. -/
theorem Access.ignores_withProgram {access : Access} (image : ByteArray)
    (h : Region.ofAddress? access.address ≠ some .program) :
    access.Ignores (·.withProgram image) where
  place := by
    unfold Access.place Memory.window Memory.locate
    cases hregion : Region.ofAddress? access.address with
    | none => rfl
    | some region =>
      dsimp only
      rw [access.memory.bytes_withProgram image fun heq => h (hregion.trans (congrArg some heq))]
  extract window hwindow := by
    obtain ⟨hregion, _⟩ := Memory.locate_eq_ok_iff.1 (Memory.window_eq_ok_iff.1 hwindow)
    unfold Memory.extract
    rw [access.memory.bytes_withProgram image fun heq => h (hregion.trans (congrArg some heq))]
  overwrite window data hwindow _ := by
    obtain ⟨region, start, size⟩ := window
    cases region <;> rfl

/-- A write never gets to the image: in the program region it is refused. -/
theorem Access.ignores_withProgram_of_write {access : Access} (image : ByteArray)
    (h : access.write = true) : access.Ignores (·.withProgram image) := by
  by_cases hregion : Region.ofAddress? access.address = some .program
  · have hrefused (memory : Memory) :
        memory.window access.address access.size access.write =
          .error (.accessViolation access.address access.size access.write .readOnly) := by
      simp only [Memory.window, Memory.locate, hregion, Memory.locateIn, h, if_true]
    have hplace : access.place = .error _ := hrefused access.memory
    exact
      { place := (hrefused _).trans hplace.symm
        extract := fun window hwindow => by rw [hplace] at hwindow; cases hwindow
        overwrite := fun window _ hwindow => by rw [hplace] at hwindow; cases hwindow }
  · exact access.ignores_withProgram image hregion

-- ════════════════════════════════════════════════════════════════════════
-- A longer heap and input
-- ════════════════════════════════════════════════════════════════════════

/-- The memory with more bytes behind the heap and behind the input. -/
def Memory.enlarge (memory : Memory) (heap input : ByteArray) : Memory :=
  { memory with heap := memory.heap ++ heap, input := memory.input ++ input }

section Enlarge

variable (memory : Memory) (heap input : ByteArray)

theorem Memory.exists_bytes_enlarge (region : Region) :
    ∃ more, (memory.enlarge heap input).bytes region = memory.bytes region ++ more := by
  cases region with
  | program | stack => exact ⟨.empty, (ByteArray.append_empty).symm⟩
  | heap => exact ⟨heap, rfl⟩
  | input => exact ⟨input, rfl⟩

/-- What is written inside the memory leaves the bytes behind it as they are. -/
theorem Memory.overwrite_enlarge {window : Window} {data : ByteArray}
    (h : window.start + data.size ≤ (memory.bytes window.region).size) :
    (memory.enlarge heap input).overwrite window data =
      (memory.overwrite window data).enlarge heap input := by
  obtain ⟨region, start, size⟩ := window
  cases region with
  | program | stack => rfl
  | heap =>
    simp only [Memory.enlarge, Memory.overwrite, Memory.modify,
      Bytes.overwrite_append_left (a := memory.heap) h]
  | input =>
    simp only [Memory.enlarge, Memory.overwrite, Memory.modify,
      Bytes.overwrite_append_left (a := memory.input) h]

end Enlarge

/-- An access that is not refused has its place in the smaller memory already. -/
theorem Access.ignores_enlarge {access : Access} (heap input : ByteArray) {window : Window}
    (h : access.place = .ok window) : access.Ignores (·.enlarge heap input) := by
  obtain ⟨hregion, hstart, hfits, hsize⟩ :=
    Memory.locate_eq_ok_iff.1 (Memory.window_eq_ok_iff.1 h)
  obtain ⟨more, hmore⟩ := access.memory.exists_bytes_enlarge heap input window.region
  refine ⟨?_, fun other hother => ?_, fun other data hother hdata => ?_⟩
  · rw [h]
    refine Memory.window_eq_ok_iff.2 (Memory.locate_eq_ok_iff.2 ⟨hregion, hstart, ?_, hsize⟩)
    rw [hmore, ByteArray.size_append]
    omega
  · obtain rfl := Except.ok.inj (h.symm.trans hother)
    unfold Memory.extract
    rw [hmore, Bytes.extract_append_left (by omega)]
  · obtain rfl := Except.ok.inj (h.symm.trans hother)
    exact Memory.overwrite_enlarge _ _ _ (by omega)

end SbfMachine
