import Mathlib.Algebra.Group.Nat.Defs
import Mathlib.Data.List.Basic
import Mathlib.Data.List.Induction

/-!
Numbers written in digits, as Rust reads them.
-/
namespace XitForge.Numerals

/-- `char::to_digit`. -/
def toDigit (radix : ℕ) (c : Char) : Option ℕ :=
  let digit :=
    if '0' ≤ c ∧ c ≤ '9' then some (c.toNat - 48)
    else if 'a' ≤ c ∧ c ≤ 'z' then some (c.toNat - 87)
    else if 'A' ≤ c ∧ c ≤ 'Z' then some (c.toNat - 55)
    else none
  digit.filter (· < radix)

def digitsValue (radix : ℕ) : ℕ → List Char → Option ℕ
  | value, [] => some value
  | value, c :: rest =>
    match toDigit radix c with
    | some digit => digitsValue radix (value * radix + digit) rest
    | none => none

def withoutSign : List Char → List Char
  | '+' :: rest => rest
  | text => text

/-- `from_str_radix` of an unsigned type; `parse` is the one with ten digits. -/
def fromStrRadix (bits radix : ℕ) (text : List Char) : Option ℕ :=
  let digits := withoutSign text
  if digits = [] then none else (digitsValue radix 0 digits).filter (· < 2 ^ bits)

/-- A text of digits denotes a number. -/
inductive Numeral (radix : ℕ) : List Char → ℕ → Prop
  | digit {c : Char} {digit : ℕ} (h : toDigit radix c = some digit) : Numeral radix [c] digit
  | snoc {text : List Char} {n digit : ℕ} {c : Char} (h : Numeral radix text n)
      (hdigit : toDigit radix c = some digit) : Numeral radix (text ++ [c]) (n * radix + digit)

variable {bits radix n : ℕ} {text : List Char}

theorem digitsValue_append (radix value : ℕ) (front rest : List Char) :
    digitsValue radix value (front ++ rest) =
      (digitsValue radix value front).bind fun value => digitsValue radix value rest := by
  induction front generalizing value with
  | nil => rfl
  | cons c front ih =>
    rw [List.cons_append, digitsValue, digitsValue]
    cases toDigit radix c with
    | none => rfl
    | some digit => exact ih _

theorem Numeral.digitsValue_eq (h : Numeral radix text n) : digitsValue radix 0 text = some n := by
  induction h with
  | digit h =>
    rw [digitsValue, h]
    dsimp only
    rw [digitsValue, Nat.zero_mul, Nat.zero_add]
  | snoc _ hdigit ih =>
    rw [digitsValue_append, ih, Option.bind_some, digitsValue, hdigit]
    rfl

theorem Numeral.ne_nil (h : Numeral radix text n) : text ≠ [] := by
  cases h with
  | digit _ => simp
  | snoc _ _ => simp

/-- The texts that denote a number are those that have its value. -/
theorem numeral_iff : Numeral radix text n ↔ text ≠ [] ∧ digitsValue radix 0 text = some n := by
  constructor
  · intro h
    exact ⟨h.ne_nil, h.digitsValue_eq⟩
  · intro hgiven
    obtain ⟨hne, hvalue⟩ := hgiven
    induction text using List.reverseRecOn generalizing n with
    | nil => exact absurd rfl hne
    | append_singleton text c ih =>
      rw [digitsValue_append] at hvalue
      obtain ⟨value, htext, hlast⟩ := Option.bind_eq_some_iff.mp hvalue
      rw [digitsValue] at hlast
      cases hdigit : toDigit radix c with
      | none => simp [hdigit] at hlast
      | some digit =>
        rw [hdigit] at hlast
        cases hlast
        by_cases hnil : text = []
        · subst hnil
          cases htext
          rw [Nat.zero_mul, Nat.zero_add]
          exact .digit hdigit
        · exact .snoc (ih hnil htext) hdigit

/-- The characters of a numeral are digits. -/
theorem Numeral.isDigit (h : Numeral radix text n) {c : Char} (hc : c ∈ text) :
    (toDigit radix c).isSome = true := by
  induction h with
  | digit h =>
    rw [List.mem_singleton] at hc
    rw [hc, h]
    rfl
  | snoc _ hdigit ih =>
    rcases List.mem_append.mp hc with hmem | hmem
    · exact ih hmem
    · rw [List.mem_singleton] at hmem
      rw [hmem, hdigit]
      rfl

/-- A numeral is read as the number it denotes, if that is of the type. -/
theorem Numeral.fromStrRadix_eq (h : Numeral radix text n) (hlt : n < 2 ^ bits) :
    fromStrRadix bits radix text = some n := by
  have hsign : withoutSign text = text := by
    unfold withoutSign
    split
    · rename_i rest
      have hplus : toDigit radix '+' = none := rfl
      have hdigit := h.isDigit (List.mem_cons_self (a := '+') (l := rest))
      rw [hplus] at hdigit
      cases hdigit
    · rfl
  unfold fromStrRadix
  dsimp only
  rw [hsign, if_neg h.ne_nil, h.digitsValue_eq, Option.filter_some,
    if_pos (decide_eq_true hlt)]

end XitForge.Numerals
