import SbfMachine.Proofs.Machine.Accesses

/-!
# Runs with a larger memory

A run that is never refused an access does not depend on where its heap and its input end. With a
larger heap and more input it goes through the same states; the bytes behind the heap and the input
that it knows of stay as they were.

## Main definitions

- `Outcome.Violation` — the end of a run that is refused an access

## Main statements

- `Machine.unaware_enlarge` — states of a run that is never refused an access
- `Machine.run_enlarge` — a run that is never refused an access does the same with a larger memory
-/

namespace SbfMachine

/-- The run has been refused an access. -/
def Outcome.Violation (outcome : Outcome) : Prop :=
  ∃ address size write refusal final,
    outcome = .faulted (.accessViolation address size write refusal) final

/-- A fresh memory with a larger heap and more input. -/
theorem Memory.new_enlarge (image input extra : ByteArray) {heapSize larger : Nat}
    (hheap : heapSize ≤ larger) :
    new image larger (input ++ extra) =
      (new image heapSize input).enlarge (Bytes.zeros (larger - heapSize)) extra := by
  have hzeros := Bytes.zeros_add heapSize (larger - heapSize)
  rw [Nat.add_sub_cancel' hheap] at hzeros
  simp only [new, enlarge, hzeros]

namespace Machine

variable {program : Program} {options : Options} {fresh : Machine}

/-- In a run that is never refused an access, no step notices that there are bytes behind the heap
and the input. -/
theorem unaware_enlarge (hboot : boot program options = .ok fresh)
    (hinside : ¬ (run program .withBuiltins fresh).Violation) (heap input : ByteArray)
    {count : Nat} {last : Machine}
    (hrun : runFor program .withBuiltins count (fresh.withStatus .running) = .running last) :
    Unaware program program (·.enlarge heap input) last where
  calls _ := rfl
  accesses access hmem := by
    cases hplace : access.place with
    | ok window => exact Access.ignores_enlarge heap input hplace
    | error fault =>
      obtain ⟨refusal, rfl⟩ := Memory.exists_refusal_of_window hplace
      obtain ⟨final, hstep⟩ := step_of_refused hmem hplace
      obtain ⟨_, hended⟩ := run_eq_of_step_ended hboot hrun (by rw [hstep]; trivial)
      rw [hstep] at hended
      exact absurd ⟨_, _, _, refusal, _, hended⟩ hinside

/-- A run that does not end because an access is refused does the same with a larger heap and with
more input: it comes to the same end in the same state, up to the new bytes, which are as they were
at the start. -/
theorem run_enlarge (hboot : boot program options = .ok fresh)
    (hinside : ¬ (run program .withBuiltins fresh).Violation) {heapSize : Nat}
    (hheap : options.heapSize ≤ heapSize) (extra : ByteArray) :
    (run program .withBuiltins fresh).Ended ∧
      ∃ larger,
        boot program { options with heapSize, input := options.input ++ extra } = .ok larger ∧
        run program .withBuiltins larger =
          (run program .withBuiltins fresh).map
            (·.mapMemory (·.enlarge (Bytes.zeros (heapSize - options.heapSize)) extra)) := by
  have hlarger : boot program { options with heapSize, input := options.input ++ extra } =
      .ok (fresh.mapMemory (·.enlarge (Bytes.zeros (heapSize - options.heapSize)) extra)) := by
    obtain ⟨hverify, rfl⟩ := boot_eq_ok hboot
    rw [boot_of_verify hverify, initial, Memory.new_enlarge _ _ _ hheap]
    rfl
  obtain ⟨hended, hsame⟩ := run_mapMemory (.refl program) hboot hlarger rfl
    fun _ _ hrun => unaware_enlarge hboot hinside _ _ hrun
  exact ⟨hended, _, hlarger, hsame⟩

/-- A program that returns the first byte of its input. -/
def readsInput : Program where
  image := encodeText [.new 0x71 0 1 0 0, .new 0x95 0 0 0 0]
  text := { start := 0, stop := 16 }
  entryPc := 0
  functions := .empty
  sbfV2 := false

def oneByte : Options :=
  { Options.default with input := ⟨#[7]⟩ }

theorem readsInput_boots : boot readsInput oneByte = .ok (initial readsInput oneByte) :=
  boot_of_verify (by decide +kernel) oneByte

theorem run_readsInput :
    ∃ final, run readsInput .withBuiltins (initial readsInput oneByte) = .exited 7 final := by
  have hsteps : ∃ next last,
      step readsInput .withBuiltins ((initial readsInput oneByte).withStatus .running) =
          .running next ∧
        step readsInput .withBuiltins next = .exited 7 last :=
    ⟨_, _, rfl, rfl⟩
  obtain ⟨next, last, hnext, hlast⟩ := hsteps
  have hrun : runFor readsInput .withBuiltins 1
      ((initial readsInput oneByte).withStatus .running) = .running next := by
    simp only [runFor, hnext]
  obtain ⟨_, hmarked⟩ := run_eq_of_step_ended readsInput_boots hrun (by rw [hlast]; trivial)
  rw [hmarked, hlast]
  exact ⟨_, rfl⟩

/-- It does the same with a second byte of input and a larger heap. -/
theorem run_enlarge_of_readsInput :
    ¬ (run readsInput .withBuiltins (initial readsInput oneByte)).Violation ∧
      ∃ larger,
        boot readsInput { oneByte with heapSize := 65536, input := oneByte.input ++ ⟨#[9]⟩ } =
          .ok larger ∧
        run readsInput .withBuiltins larger =
          (run readsInput .withBuiltins (initial readsInput oneByte)).map
            (·.mapMemory (·.enlarge (Bytes.zeros (65536 - oneByte.heapSize)) ⟨#[9]⟩)) := by
  obtain ⟨final, hrun⟩ := run_readsInput
  have hinside : ¬ (run readsInput .withBuiltins (initial readsInput oneByte)).Violation := by
    rw [hrun]
    exact fun ⟨_, _, _, _, _, hviolation⟩ => nomatch hviolation
  exact ⟨hinside, (run_enlarge readsInput_boots hinside (by decide) ⟨#[9]⟩).2⟩

end Machine

end SbfMachine
