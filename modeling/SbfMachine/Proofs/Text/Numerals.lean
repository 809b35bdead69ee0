import SbfMachine.Text.Literals

/-!
# Texts of numbers

Different numbers have different texts, in decimal and in hexadecimal, and few characters occur in
these texts. So a text that is put together from them can be taken apart again at the characters
that do not.

## Main statements

- `Text.eq_and_eq_of_append_eq` — taking two texts apart at the first character of another kind
- `Text.not_mem_repr_nat`, `Text.not_mem_repr`, `Text.not_mem_hex` — characters that are not part of
  a number
- `Text.hex_injective` — different numbers differ in hexadecimal
-/

namespace SbfMachine.Text

-- ════════════════════════════════════════════════════════════════════════
-- Taking texts apart
-- ════════════════════════════════════════════════════════════════════════

/-- Two texts begin with characters of one kind, and then end or go on with one of another kind. If
they are equal, they change the kind at the same place. -/
theorem eq_and_eq_of_append_eq {p : Char → Prop} {a b x y : List Char} (ha : ∀ c ∈ a, p c)
    (hb : ∀ c ∈ b, p c) (hx : ∀ c ∈ x.head?, ¬p c) (hy : ∀ c ∈ y.head?, ¬p c)
    (h : a ++ x = b ++ y) : a = b ∧ x = y := by
  induction a generalizing b with
  | nil =>
    cases b with
    | nil => exact ⟨rfl, h⟩
    | cons c b =>
      have hhead : c ∈ x.head? := by
        rw [show x = c :: (b ++ y) from h]
        rfl
      exact absurd (hb c List.mem_cons_self) (hx c hhead)
  | cons c a ih =>
    cases b with
    | nil =>
      have hhead : c ∈ y.head? := by
        rw [show y = c :: (a ++ x) from h.symm]
        rfl
      exact absurd (ha c List.mem_cons_self) (hy c hhead)
    | cons d b =>
      obtain ⟨rfl, hrest⟩ := List.cons.inj h
      obtain ⟨rfl, rfl⟩ := ih (fun c hc => ha c (List.mem_cons_of_mem _ hc))
        (fun c hc => hb c (List.mem_cons_of_mem _ hc)) hrest
      exact ⟨rfl, rfl⟩

-- ════════════════════════════════════════════════════════════════════════
-- Decimal numbers
-- ════════════════════════════════════════════════════════════════════════

theorem isDigit_of_mem_repr {n : Nat} {c : Char} (h : c ∈ n.repr.toList) : c.isDigit = true := by
  rw [Nat.repr_eq_ofList_toDigits, String.toList_ofList] at h
  exact Nat.isDigit_of_mem_toDigits (by decide) (by decide) h

theorem not_mem_repr_nat {c : Char} (h : c.isDigit = false) (n : Nat) : c ∉ n.repr.toList := by
  intro hmem
  rw [isDigit_of_mem_repr hmem] at h
  cases h

/-- Besides digits, the text of an integer has a minus sign at most. -/
theorem not_mem_repr {c : Char} (h : c.isDigit = false) (hminus : c ≠ '-') (n : Int) :
    c ∉ n.repr.toList := by
  rw [Int.repr_eq_if]
  split
  · exact not_mem_repr_nat h _
  · rw [String.toList_append, List.mem_append, not_or]
    exact ⟨fun hmem => hminus (List.mem_singleton.1 hmem), not_mem_repr_nat h _⟩

-- ════════════════════════════════════════════════════════════════════════
-- Hexadecimal numbers
-- ════════════════════════════════════════════════════════════════════════

theorem hexDigits_ne_nil (n : Nat) : hexDigits n ≠ [] := by
  unfold hexDigits
  split
  · exact List.cons_ne_nil _ _
  · exact List.append_ne_nil_of_right_ne_nil _ (List.cons_ne_nil _ _)

theorem singleton_ne_hexDigits_append (n : Nat) (digit last : Char) :
    [digit] ≠ hexDigits n ++ [last] := by
  intro h
  rcases List.singleton_eq_append_iff.1 h with ⟨hnil, -⟩ | ⟨-, hnil⟩
  · exact hexDigits_ne_nil n hnil
  · cases hnil

theorem hexDigit_injective {a b : Nat} (ha : a < 16) (hb : b < 16) (h : hexDigit a = hexDigit b) :
    a = b := by
  have hdigits : ∀ a < 16, ∀ b < 16, hexDigit a = hexDigit b → a = b := by decide
  exact hdigits a ha b hb h

/-- Different numbers have different hexadecimal digits. -/
theorem hexDigits_injective {a b : Nat} (h : hexDigits a = hexDigits b) : a = b := by
  induction a using hexDigits.induct generalizing b with
  | case1 a ha =>
    rw [hexDigits, if_pos ha, hexDigits] at h
    split at h
    · next hb => exact hexDigit_injective ha hb (List.singleton_inj.1 h)
    · next hb => exact absurd h (singleton_ne_hexDigits_append _ _ _)
  | case2 a ha ih =>
    rw [hexDigits.eq_def a, if_neg ha, hexDigits.eq_def b] at h
    split at h
    · next hb => exact absurd h.symm (singleton_ne_hexDigits_append _ _ _)
    · next hb =>
      obtain ⟨hhigh, hlow⟩ := List.append_inj' h rfl
      have hquotient := ih hhigh
      have hremainder := hexDigit_injective (Nat.mod_lt a (by decide)) (Nat.mod_lt b (by decide))
        (List.singleton_inj.1 hlow)
      omega

theorem hex_injective {a b : Nat} (h : hex a = hex b) : a = b := by
  have hdigits : String.ofList (hexDigits a) = String.ofList (hexDigits b) :=
    (String.append_right_inj "0x").1 h
  exact hexDigits_injective (String.ofList_inj.1 hdigits)

theorem isAlphanum_hexDigit {n : Nat} (h : n < 16) : (hexDigit n).isAlphanum = true := by
  have hdigits : ∀ n < 16, (hexDigit n).isAlphanum = true := by decide
  exact hdigits n h

theorem isAlphanum_of_mem_hexDigits {n : Nat} {c : Char} (h : c ∈ hexDigits n) :
    c.isAlphanum = true := by
  induction n using hexDigits.induct with
  | case1 n hn =>
    rw [hexDigits, if_pos hn, List.mem_singleton] at h
    exact h ▸ isAlphanum_hexDigit hn
  | case2 n hn ih =>
    rw [hexDigits, if_neg hn] at h
    rcases List.mem_append.1 h with hhigh | hlow
    · exact ih hhigh
    · rw [List.mem_singleton.1 hlow]
      exact isAlphanum_hexDigit (Nat.mod_lt n (by decide))

theorem not_mem_hex {c : Char} (h : c.isAlphanum = false) (n : Nat) : c ∉ (hex n).toList := by
  have hmark : "0x".toList.all Char.isAlphanum = true := by decide
  intro hmem
  have halphanum : c.isAlphanum = true := by
    rw [hex, String.toList_append] at hmem
    rcases List.mem_append.1 hmem with hprefix | hdigit
    · exact List.all_eq_true.1 hmark c hprefix
    · rw [String.toList_ofList] at hdigit
      exact isAlphanum_of_mem_hexDigits hdigit
  rw [halphanum] at h
  cases h

end SbfMachine.Text
