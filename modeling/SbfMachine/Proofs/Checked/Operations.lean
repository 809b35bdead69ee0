import SbfMachine.LoadError
import SbfMachine.Proofs.Bytes

/-!
# Computations that may trap

A machine computes with words and indexes what lies in its memory. Where the result of an operation
is not a word, or an index is not inside, a computation traps: it comes to an end with neither a
value nor an error. The operations here say when that is so. Numbers stand for words as long as
nothing has trapped, so that what does not trap computes with exact numbers.

## Main definitions

- `Checked` — computations that trap, fail or return
- `Checked.lift` — computations that do not trap
- `Checked.add`, `Checked.sub`, `Checked.mul`, `Checked.addSigned` — arithmetic on words
- `Checked.index`, `Checked.element`, `Checked.slice`, `Checked.copied`, `Checked.replace` — bytes
  and items
- `Checked.find?` — a search with a condition that may trap

## Main statements

- `Checked.bind_eq_lift` — a sequence does not trap if its parts do not
- `Checked.foldlM_eq_lift` — a loop does not trap if an invariant keeps its steps from it
-/

namespace SbfMachine

/-- A computation on words: it traps, or it fails with an error or returns a value. -/
abbrev Checked := ExceptT LoadError Option

namespace Checked

variable {α β : Type}

def trap : Checked α :=
  ExceptT.mk none

/-- A computation that does not trap. -/
def lift (outcome : Except LoadError α) : Checked α :=
  ExceptT.mk (some outcome)

def add (a b : Nat) : Checked Nat :=
  if a + b < UInt64.size then pure (a + b) else trap

def sub (a b : Nat) : Checked Nat :=
  if b ≤ a then pure (a - b) else trap

def mul (a b : Nat) : Checked Nat :=
  if a * b < UInt64.size then pure (a * b) else trap

/-- The sum of two signed words. -/
def addSigned (a b : Int) : Checked Int :=
  if -2 ^ 63 ≤ a + b ∧ a + b < 2 ^ 63 then pure (a + b) else trap

def index (bytes : ByteArray) (i : Nat) : Checked UInt8 :=
  if h : i < bytes.size then pure bytes[i] else trap

def element (items : Array α) (i : Nat) : Checked α :=
  if h : i < items.size then pure items[i] else trap

/-- The bytes of a range, which has to be one of the byte string. -/
def slice (bytes : ByteArray) (start stop : Nat) : Checked ByteArray :=
  if start ≤ stop ∧ stop ≤ bytes.size then pure (bytes.extract start stop) else trap

/-- The copy of a slice in an array, which has to have as many bytes. -/
def copied (size : Nat) (bytes : ByteArray) : Checked ByteArray :=
  if bytes.size = size then pure bytes else trap

/-- Replaces the bytes of a range, which has to be one of the byte string, by equally many. -/
def replace (bytes : ByteArray) (start stop : Nat) (data : ByteArray) : Checked ByteArray :=
  if start ≤ stop ∧ stop ≤ bytes.size ∧ data.size = stop - start then
    pure (Bytes.overwrite bytes start data)
  else trap

/-- The first item that fulfils a condition. -/
def find? (condition : α → Checked Bool) : List α → Checked (Option α)
  | [] => return none
  | item :: rest => do
    if ← condition item then return some item else find? condition rest

-- ════════════════════════════════════════════════════════════════════════
-- Where operations do not trap
-- ════════════════════════════════════════════════════════════════════════

theorem add_eq {a b : Nat} (h : a + b < UInt64.size) : add a b = pure (a + b) :=
  if_pos h

theorem sub_eq {a b : Nat} (h : b ≤ a) : sub a b = pure (a - b) :=
  if_pos h

theorem mul_eq {a b : Nat} (h : a * b < UInt64.size) : mul a b = pure (a * b) :=
  if_pos h

theorem addSigned_eq {a b : Int} (h : -2 ^ 63 ≤ a + b ∧ a + b < 2 ^ 63) :
    addSigned a b = pure (a + b) :=
  if_pos h

theorem index_eq {bytes : ByteArray} {i : Nat} (h : i < bytes.size) :
    index bytes i = pure (Bytes.byteAt bytes i) := by
  rw [index, dif_pos h, Bytes.byteAt_of_lt h]

theorem element_eq {items : Array α} {i : Nat} (h : i < items.size) :
    element items i = pure items[i] :=
  dif_pos h

theorem slice_eq {bytes : ByteArray} {start stop : Nat} (hrange : start ≤ stop)
    (hinside : stop ≤ bytes.size) : slice bytes start stop = pure (bytes.extract start stop) :=
  if_pos ⟨hrange, hinside⟩

theorem copied_eq {size : Nat} {bytes : ByteArray} (h : bytes.size = size) :
    copied size bytes = pure bytes :=
  if_pos h

theorem replace_eq {bytes data : ByteArray} {start stop : Nat} (hrange : start ≤ stop)
    (hinside : stop ≤ bytes.size) (hsize : data.size = stop - start) :
    replace bytes start stop data = pure (Bytes.overwrite bytes start data) :=
  if_pos ⟨hrange, hinside, hsize⟩

-- ════════════════════════════════════════════════════════════════════════
-- Sequences and loops
-- ════════════════════════════════════════════════════════════════════════

/-- A sequence of two computations does not trap if the first one does not, nor the second one after
what the first one returns. -/
theorem bind_eq_lift {first : Checked α} {outcome : Except LoadError α} {rest : α → Checked β}
    {next : α → Except LoadError β} (hfirst : first = lift outcome)
    (hrest : ∀ value, outcome = .ok value → rest value = lift (next value)) :
    (first >>= rest) = lift (outcome >>= next) := by
  subst hfirst
  cases outcome with
  | error => rfl
  | ok value => exact hrest value rfl

@[simp] theorem lift_ok (value : α) : lift (.ok value) = pure value := rfl

@[simp] theorem lift_error (error : LoadError) :
    lift (.error error : Except LoadError α) = throw error := rfl

@[simp] theorem lift_ite {condition : Prop} [Decidable condition] (a b : Except LoadError α) :
    lift (if condition then a else b) = if condition then lift a else lift b :=
  apply_ite lift condition a b

/-- A computation whose error is replaced does not trap if it does not. -/
theorem tryCatch_lift (outcome : Except LoadError α) (handler : LoadError → Checked α) :
    tryCatch (lift outcome) handler =
      match outcome with
      | .ok value => pure value
      | .error error => handler error := by
  cases outcome <;> rfl

/-- A loop does not trap if an invariant keeps its steps from it. -/
theorem foldlM_eq_lift {step : β → α → Checked β} {exact : β → α → Except LoadError β}
    {list : List α} (P : β → List α → Prop)
    (hstep : ∀ before item rest, P before (item :: rest) →
      step before item = lift (exact before item))
    (hkeep : ∀ before item rest after, P before (item :: rest) → exact before item = .ok after →
      P after rest)
    {start : β} (hstart : P start list) :
    list.foldlM step start = lift (list.foldlM exact start) := by
  induction list generalizing start with
  | nil => rfl
  | cons item rest ih =>
    rw [List.foldlM_cons, List.foldlM_cons]
    exact bind_eq_lift (hstep start item rest hstart) fun after hafter =>
      ih (hkeep start item rest after hstart hafter)

/-- A loop whose steps always return. -/
theorem foldlM_eq {step : β → α → Checked β} {exact : β → α → β} {list : List α} (P : β → Prop)
    (hstep : ∀ before, ∀ item ∈ list, P before → step before item = pure (exact before item))
    (hkeep : ∀ before, ∀ item ∈ list, P before → P (exact before item))
    {start : β} (hstart : P start) : list.foldlM step start = pure (list.foldl exact start) := by
  induction list generalizing start with
  | nil => rfl
  | cons item rest ih =>
    rw [List.foldlM_cons, hstep start item List.mem_cons_self hstart, pure_bind, List.foldl_cons]
    exact ih (fun before other hother => hstep before other (List.mem_cons_of_mem item hother))
      (fun before other hother => hkeep before other (List.mem_cons_of_mem item hother))
      (hkeep start item List.mem_cons_self hstart)

theorem mapM_eq {f : α → Checked β} {g : α → β} {list : List α}
    (h : ∀ item ∈ list, f item = pure (g item)) : list.mapM f = pure (list.map g) := by
  induction list with
  | nil => rfl
  | cons item rest ih =>
    rw [List.mapM_cons, h item List.mem_cons_self,
      ih fun other hother => h other (List.mem_cons_of_mem item hother)]
    rfl

theorem find?_eq {condition : α → Checked Bool} {holds : α → Bool} {list : List α}
    (h : ∀ item ∈ list, condition item = pure (holds item)) :
    find? condition list = pure (list.find? holds) := by
  induction list with
  | nil => rfl
  | cons item rest ih =>
    rw [find?, h item List.mem_cons_self, pure_bind, List.find?_cons]
    cases holds item with
    | true => rfl
    | false => exact ih fun other hother => h other (List.mem_cons_of_mem item hother)

end Checked

end SbfMachine
