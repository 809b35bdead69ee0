import SbfMachine.Proofs.Link.Blueprint.Image
import SbfMachine.Proofs.Machine.LargerMemory

/-!
# Runs of a bare text and of its shared object

The same instructions can be run as a bare text or from the shared object that is written from them.
The two programs have different images: in the file, the text stands behind the headers. A run that
neither calls an address nor accesses the image cannot tell them apart.

An access belongs to the program region if the address that it names does. One without bytes belongs
there, too, as the machine looks for its place all the same; and if it names an address behind the
bare text, it is refused on the one image and may be granted on the other.

## Main definitions

- `Machine.KeepsApart` — the step neither calls an address nor accesses the program region

## Main statements

- `Program.exists_load_of_ofText` — the two programs have the same instructions and functions
- `Machine.run_sharedObject` — they run in the same way
-/

namespace SbfMachine

open Link

-- ════════════════════════════════════════════════════════════════════════
-- The two programs
-- ════════════════════════════════════════════════════════════════════════

namespace Program

/-- Programs with the same slots in their texts fetch the same instructions and are verified alike.
-/
theorem slots_of_surrounded {program other : Program} {front behind slots : ByteArray}
    (himage : program.image = slots) (htext : program.text = { start := 0, stop := slots.size })
    (himage' : other.image = front ++ slots ++ behind)
    (htext' : other.text = { start := front.size, stop := front.size + slots.size }) :
    (∀ pc, other.slot? pc = program.slot? pc) ∧ other.textBytes = program.textBytes := by
  have hbare : program.image = .empty ++ slots ++ .empty := by
    rw [himage, ByteArray.empty_append, ByteArray.append_empty]
  have hrange : program.text =
      { start := ByteArray.empty.size, stop := ByteArray.empty.size + slots.size } := by
    rw [htext, ByteArray.size_empty, Nat.zero_add]
  refine ⟨fun pc => ?_, ?_⟩
  · rw [slot?_of_surrounded hbare hrange, slot?_of_surrounded himage' htext']
  · rw [textBytes_of_surrounded hbare hrange, textBytes_of_surrounded himage' htext']

/-- The shared object that is written from the text of a program is loaded to a program with the
same instructions, functions and entry. -/
theorem exists_load_of_ofText {text : ByteArray} {program : Program}
    (hprogram : ofText text = .ok program)
    (hsize : (Blueprint.ofText text).build.size ≤ Elf.maxFileSize) :
    ∃ loaded, load (Blueprint.ofText text).build = .ok loaded ∧
      program.Alike loaded.program ∧ loaded.program.textBytes = program.textBytes ∧
        loaded.program.entryPc = program.entryPc := by
  obtain ⟨⟨hnonempty, haligned⟩, linkage, hlinkage, hbare⟩ := exists_linkage_of_ofText hprogram
  obtain ⟨loaded, hload, himage, htext, hentry, hfunctions⟩ :=
    Blueprint.exists_load_ofText hnonempty haligned hsize hlinkage
  have hslots : linkage.image.size = text.size := (Linkage.resolveCalls_keeps hlinkage).1
  have hbareText : program.text = { start := 0, stop := linkage.image.size } := by
    rw [hbare, hslots]
  have htext' : loaded.program.text =
      { start := (Bytes.zeros Blueprint.textOffset).size
        stop := (Bytes.zeros Blueprint.textOffset).size + linkage.image.size } := by
    rw [htext, Bytes.size_zeros, hslots]
  obtain ⟨hfetch, hbytes⟩ := slots_of_surrounded (by rw [hbare]) hbareText himage htext'
  rw [hbare] at hfetch hbytes ⊢
  exact ⟨loaded, hload, ⟨hfetch, hfunctions⟩, hbytes, hentry⟩

end Program

-- ════════════════════════════════════════════════════════════════════════
-- Their runs
-- ════════════════════════════════════════════════════════════════════════

theorem Memory.new_withProgram (image other : ByteArray) (heapSize : Nat) (input : ByteArray) :
    (new image heapSize input).withProgram other = new other heapSize input := by
  simp only [new, withProgram]

namespace Machine

/-- The step neither calls an address nor accesses the program region. An access belongs to the
region of the address that it names, also one without bytes and one that is refused. -/
structure KeepsApart (program : Program) (machine : Machine) : Prop where
  calls : ¬machine.CallsAddress program
  accesses : ∀ access ∈ machine.accesses program,
    Region.ofAddress? access.address ≠ some .program

/-- A program that is verified can be run from the shared object that is written from its text as
well. If its run never calls an address and never accesses the program region, the other run comes
to the same end in the same state, up to the image. -/
theorem run_sharedObject {text : ByteArray} {program : Program} {options : Options}
    {fresh : Machine} (hprogram : Program.ofText text = .ok program)
    (hsize : (Blueprint.ofText text).build.size ≤ Elf.maxFileSize)
    (hboot : boot program options = .ok fresh)
    (hapart : ∀ count last,
      runFor program .withBuiltins count (fresh.withStatus .running) = .running last →
        last.KeepsApart program) :
    (run program .withBuiltins fresh).Ended ∧
      ∃ loaded other, load (Blueprint.ofText text).build = .ok loaded ∧
        boot loaded.program options = .ok other ∧
        run loaded.program .withBuiltins other =
          (run program .withBuiltins fresh).map
            (·.mapMemory (·.withProgram loaded.program.image)) := by
  obtain ⟨loaded, hload, halike, htext, hentry⟩ :=
    Program.exists_load_of_ofText hprogram hsize
  have hother : boot loaded.program options =
      .ok (fresh.mapMemory (·.withProgram loaded.program.image)) := by
    obtain ⟨hverify, rfl⟩ := boot_eq_ok hboot
    have hverify' : loaded.program.verify = .ok () := by
      rw [Program.verify, htext]
      exact hverify
    rw [boot_of_verify hverify', initial, hentry, ← Memory.new_withProgram program.image]
    rfl
  obtain ⟨hended, hsame⟩ := run_mapMemory halike hboot hother rfl fun count last hrun =>
    have hstep := hapart count last hrun
    { calls := fun hcalls => absurd hcalls hstep.calls
      accesses := fun access hmem =>
        access.ignores_withProgram loaded.program.image (hstep.accesses access hmem) }
  exact ⟨hended, loaded, _, hload, hother, hsame⟩

theorem readsInput_of_text : Program.ofText readsInput.image = .ok readsInput :=
  rfl

theorem not_callsAddress_readsInput (machine : Machine) : ¬machine.CallsAddress readsInput := by
  rintro ⟨slot, meter, hfetch, -, hcall⟩
  unfold Program.slot? at hfetch
  split at hfetch
  · next hpc =>
    obtain rfl := Option.some.inj hfetch
    have hslots : ∀ pc < readsInput.slotCount, Opcode.ofByte? (Slot.atOffset readsInput.image
        (readsInput.text.slotOffset pc)).opcode ≠ some .callRegister := by
      decide +kernel
    exact hslots _ hpc hcall
  · cases hfetch

/-- The one access of its run is directed to the input. -/
theorem readsInput_keepsApart {count : Nat} {last : Machine}
    (h : runFor readsInput .withBuiltins count
      ((initial readsInput oneByte).withStatus .running) = .running last) :
    last.KeepsApart readsInput := by
  have hsteps : ∃ next final,
      step readsInput .withBuiltins ((initial readsInput oneByte).withStatus .running) =
          .running next ∧
        step readsInput .withBuiltins next = .exited 7 final ∧ next.accesses readsInput = [] :=
    ⟨_, _, rfl, rfl, rfl⟩
  obtain ⟨next, final, hnext, hfinal, hnone⟩ := hsteps
  refine ⟨not_callsAddress_readsInput last, fun access hmem => ?_⟩
  match count with
  | 0 =>
    cases h
    obtain rfl := List.mem_singleton.1 hmem
    decide
  | 1 =>
    simp only [runFor, hnext] at h
    cases h
    rw [hnone] at hmem
    exact absurd hmem List.not_mem_nil
  | count + 2 =>
    simp only [runFor, hnext, hfinal] at h
    cases h

/-- The shared object of a program that returns the first byte of its input. -/
theorem run_sharedObject_of_readsInput :
    (∀ count last, runFor readsInput .withBuiltins count
        ((initial readsInput oneByte).withStatus .running) = .running last →
          last.KeepsApart readsInput) ∧
      ∃ loaded other, load (Blueprint.ofText readsInput.image).build = .ok loaded ∧
        boot loaded.program oneByte = .ok other ∧
        run loaded.program .withBuiltins other =
          (run readsInput .withBuiltins (initial readsInput oneByte)).map
            (·.mapMemory (·.withProgram loaded.program.image)) := by
  have hsize : (Blueprint.ofText readsInput.image).build.size ≤ Elf.maxFileSize := by
    rw [Blueprint.size_build rfl]
    decide +kernel
  exact ⟨fun _ _ => readsInput_keepsApart,
    (run_sharedObject readsInput_of_text hsize readsInput_boots
      fun _ _ => readsInput_keepsApart).2⟩

end Machine

end SbfMachine
