import SbfMachine.LoadError

/-!
# Computations that may fail

How a computation in `Except` that has a result got it: every part of it had one. And how one error
is ruled out, that two functions have the same hash: no part of the computation reports it.

## Main definitions

- `CollisionFree` — no report of a collision

## Main statements

- `exists_of_bind_eq_ok` — a sequence of two computations
- `foldlM_ok_induction` — a fold over a list
- `CollisionFree.bind`, `collisionFree_foldlM` — the same for the error
-/

namespace SbfMachine

-- ════════════════════════════════════════════════════════════════════════
-- Results
-- ════════════════════════════════════════════════════════════════════════

variable {ε α β : Type}

/-- If a sequence of two computations has a result, then so has each of them. -/
theorem exists_of_bind_eq_ok {first : Except ε α} {rest : α → Except ε β} {result : β}
    (h : (first >>= rest) = .ok result) : ∃ value, first = .ok value ∧ rest value = .ok result := by
  cases first with
  | error => cases h
  | ok value => exact ⟨value, rfl, h⟩

theorem exists_eq_ok_of_isOk {outcome : Except ε α} (h : outcome.isOk = true) :
    ∃ value, outcome = .ok value := by
  cases outcome with
  | error => cases h
  | ok value => exact ⟨value, rfl⟩

theorem exists_map_eq_ok_iff {f : α → β} {outcome : Except ε α} :
    (∃ result, outcome.map f = .ok result) ↔ ∃ value, outcome = .ok value := by
  cases outcome <;> simp [Except.map]

theorem map_eq_error_iff {f : α → β} {outcome : Except ε α} {error : ε} :
    outcome.map f = .error error ↔ outcome = .error error := by
  cases outcome <;> simp [Except.map]

/-- What holds at the start of a fold and is kept by each of its steps holds at the end. -/
theorem foldlM_ok_induction {step : β → α → Except ε β} (P : β → Prop) {list : List α}
    {start result : β} (h : list.foldlM step start = .ok result) (hstart : P start)
    (hstep : ∀ before item after, item ∈ list → P before → step before item = .ok after → P after) :
    P result := by
  induction list generalizing start with
  | nil =>
    obtain rfl := Except.ok.inj h
    exact hstart
  | cons item list ih =>
    rw [List.foldlM_cons] at h
    obtain ⟨after, hitem, hrest⟩ := exists_of_bind_eq_ok h
    exact ih hrest (hstep start item after List.mem_cons_self hstart hitem)
      fun before later after hmem => hstep before later after (List.mem_cons_of_mem item hmem)

-- ════════════════════════════════════════════════════════════════════════
-- Collisions of hashes
-- ════════════════════════════════════════════════════════════════════════

/-- The outcome is no report of two functions with one hash. -/
def CollisionFree (outcome : Except LoadError α) : Prop :=
  ∀ hash slot, outcome ≠ .error (.hashCollision hash slot)

@[simp]
theorem collisionFree_ok (value : α) : CollisionFree (.ok value) :=
  fun _ _ => nofun

@[simp]
theorem collisionFree_pure (value : α) : CollisionFree (pure value) :=
  collisionFree_ok value

@[simp]
theorem collisionFree_error_iff {error : LoadError} :
    CollisionFree (.error error : Except LoadError α) ↔
      ∀ hash slot, error ≠ .hashCollision hash slot := by
  simp only [CollisionFree, ne_eq, Except.error.injEq]

@[simp]
theorem collisionFree_throw_iff {error : LoadError} :
    CollisionFree (throw error : Except LoadError α) ↔
      ∀ hash slot, error ≠ .hashCollision hash slot :=
  collisionFree_error_iff

@[simp]
theorem collisionFree_throw_bind_iff {error : LoadError} {rest : α → Except LoadError β} :
    CollisionFree (throw error >>= rest) ↔ ∀ hash slot, error ≠ .hashCollision hash slot :=
  collisionFree_error_iff

@[simp]
theorem collisionFree_ite_iff {p : Prop} [Decidable p] {first second : Except LoadError α} :
    CollisionFree (if p then first else second) ↔
      (p → CollisionFree first) ∧ (¬p → CollisionFree second) := by
  by_cases h : p <;> simp [h]

theorem CollisionFree.bind {first : Except LoadError α} {rest : α → Except LoadError β}
    (hfirst : CollisionFree first)
    (hrest : ∀ value, first = .ok value → CollisionFree (rest value)) :
    CollisionFree (first >>= rest) := by
  cases first with
  | error error =>
    rw [collisionFree_error_iff] at hfirst
    exact collisionFree_error_iff.2 hfirst
  | ok value => exact hrest value rfl

@[simp]
theorem collisionFree_map_iff {f : α → β} {outcome : Except LoadError α} :
    CollisionFree (f <$> outcome) ↔ CollisionFree outcome := by
  cases outcome with
  | error error => exact collisionFree_error_iff.trans collisionFree_error_iff.symm
  | ok value => exact iff_of_true (collisionFree_ok (f value)) (collisionFree_ok value)

/-- An error that is passed on is no report of a collision if it was none before. -/
theorem CollisionFree.error {outcome : Except LoadError α} {error : LoadError}
    (h : CollisionFree outcome) (herror : outcome = .error error) :
    CollisionFree (.error error : Except LoadError β) := by
  rw [herror, collisionFree_error_iff] at h
  exact collisionFree_error_iff.2 h

/-- A fold reports no collision if none of its steps does as long as `P` holds. -/
theorem collisionFree_foldlM {step : β → α → Except LoadError β} (P : β → Prop) {list : List α}
    {start : β} (hstart : P start)
    (hstep : ∀ before item, P before → CollisionFree (step before item) ∧
      ∀ after, step before item = .ok after → P after) :
    CollisionFree (list.foldlM step start) := by
  induction list generalizing start with
  | nil => exact collisionFree_ok start
  | cons item list ih =>
    rw [List.foldlM_cons]
    obtain ⟨hitem, hkeeps⟩ := hstep start item hstart
    exact hitem.bind fun after hafter => ih (hkeeps after hafter)

end SbfMachine
