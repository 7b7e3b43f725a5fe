import FacetedSearch.Text.Numeral
import Mathlib.Algebra.Ring.Nat
import Mathlib.Data.List.Basic

/-!
# Runs of digits

The digits of a number give that number back, and begin with zero for zero alone.
-/

namespace FacetedSearch.Text

theorem digitsValue_cons (acc : ℕ) (c : Char) (cs : List Char) :
    digitsValue acc (c :: cs) = digitsValue (10 * acc + digitValue c) cs := by
  rfl

theorem digitsValue_eq (acc : ℕ) (cs : List Char) :
    digitsValue acc cs = Nat.ofDigitChars 10 cs acc := by
  induction cs generalizing acc with
  | nil => exact Nat.ofDigitChars_nil.symm
  | cons c cs ih => rw [digitsValue_cons, ih, Nat.ofDigitChars_cons, digitValue]

theorem digitsValue_append (acc : ℕ) (cs ds : List Char) :
    digitsValue acc (cs ++ ds) = 10 ^ ds.length * digitsValue acc cs + digitsValue 0 ds := by
  rw [digitsValue_eq, Nat.ofDigitChars_append, Nat.ofDigitChars_eq_ofDigitChars_zero,
    ← digitsValue_eq, ← digitsValue_eq]

theorem digitsValue_replicate_zero (acc n : ℕ) :
    digitsValue acc (List.replicate n '0') = 10 ^ n * acc := by
  rw [digitsValue_eq, Nat.ofDigitChars_replicate_zero]

theorem digitsValue_digits (n : ℕ) : digitsValue 0 (digits n) = n := by
  rw [digitsValue_eq, digits, Nat.ofDigitChars_ten_toDigits]

theorem digits_ne_nil (n : ℕ) : digits n ≠ [] := Nat.toDigits_ne_nil

theorem isDigit_of_mem_digits {n : ℕ} {c : Char} (h : c ∈ digits n) : c.isDigit = true :=
  Nat.isDigit_of_mem_toDigits (by decide) (by decide) h

theorem head?_digits_ne_zero {n : ℕ} (h : n ≠ 0) : (digits n).head? ≠ some '0' := by
  induction n using Nat.strongRecOn with
  | ind n ih =>
      unfold digits at ih ⊢
      by_cases hlt : n < 10
      · rw [Nat.toDigits_of_lt_base hlt, List.head?_cons, Ne, Option.some_inj]
        exact fun hzero => h (Nat.digitChar_eq_zero.mp hzero)
      · have hquot : n / 10 ≠ 0 := by omega
        rw [Nat.toDigits_of_base_le (by decide) (by omega),
          List.head?_append_of_ne_nil _ Nat.toDigits_ne_nil]
        exact ih (n / 10) (by omega) hquot

theorem numeralValue?_digits (n : ℕ) : numeralValue? (digits n) = some n := by
  have hempty : (digits n).isEmpty = false := List.isEmpty_eq_false_iff.mpr (digits_ne_nil n)
  have hdigits : (digits n).any (fun c => !c.isDigit) = false := by
    rw [List.any_eq_false]
    intro c hc
    rw [isDigit_of_mem_digits hc]
    decide
  rw [numeralValue?, hempty, hdigits, digitsValue_digits]
  rfl

/-- A number is read back from its digits if it is below the limit. -/
theorem natural?_digits {limit n : ℕ} (h : n < limit) :
    natural? limit (String.ofList (digits n)) = some n := by
  have hvalue : (numeralValue? (digits n)).filter (· < limit) = some n := by
    rw [numeralValue?_digits, Option.filter_some, if_pos (decide_eq_true h)]
  unfold natural?
  rw [String.toList_ofList]
  split
  next cs heq =>
    -- a digit is no sign
    have hsign : '+'.isDigit = true := isDigit_of_mem_digits (heq ▸ List.mem_cons_self)
    exact absurd hsign (by decide)
  next => exact hvalue

theorem digits_zero : digits 0 = ['0'] := rfl

end FacetedSearch.Text
