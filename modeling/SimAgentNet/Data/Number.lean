import Mathlib

/-! # Reading numbers

Unsigned numbers in decimal digits, after an optional plus sign, below a bound: what the standard
library reads with `parse` for an unsigned type. -/

namespace Number

/-- The digits of a number, after an optional plus sign. -/
def unsigned : List Char → List Char
  | '+' :: digits => digits
  | digits => digits

/-- The number that a text writes, if it is below the bound. -/
def parse (bound : Nat) (text : List Char) : Option Nat :=
  let digits := unsigned text
  if digits ≠ [] ∧ digits.all Char.isDigit ∧ Nat.ofDigitChars 10 digits 0 < bound then
    some (Nat.ofDigitChars 10 digits 0)
  else none

theorem unsigned_eq_self {digits : List Char} (h : digits.all Char.isDigit) :
    unsigned digits = digits := by
  cases digits with
  | nil => rfl
  | cons c digits =>
    unfold unsigned
    split
    · rename_i heq
      cases heq
      exact absurd (List.all_eq_true.mp h '+' List.mem_cons_self) (by decide)
    · rfl

theorem parse_toString {n : Nat} (h : n < bound) :
    parse bound (toString n : String).toList = some n := by
  have hdigits : (toString n : String).toList = Nat.toDigits 10 n := Nat.toList_repr
  have hall : (Nat.toDigits 10 n).all Char.isDigit := by
    rw [List.all_eq_true]
    intro c hc
    exact Nat.isDigit_of_mem_toDigits (by decide) (by decide) hc
  rw [hdigits, parse, unsigned_eq_self hall, Nat.ofDigitChars_ten_toDigits]
  exact if_pos ⟨Nat.toDigits_ne_nil, hall, h⟩

/-- A number is written with digits and a plus sign. -/
theorem isDigit_of_parse (h : parse bound text = some n) : ∀ c ∈ text, c.isDigit ∨ c = '+' := by
  have hall : (unsigned text).all Char.isDigit = true := by
    simp only [parse] at h
    split at h
    · rename_i hparse
      exact hparse.2.1
    · cases h
  rw [List.all_eq_true] at hall
  intro c hc
  unfold unsigned at hall
  split at hall
  · obtain rfl | hc := List.mem_cons.mp hc
    · exact .inr rfl
    · exact .inl (hall c hc)
  · exact .inl (hall c hc)

theorem parse_lt (h : parse bound text = some n) : n < bound := by
  simp only [parse] at h
  split at h
  · rename_i hparse
    cases h
    exact hparse.2.2
  · cases h

end Number
