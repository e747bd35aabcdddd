import Mathlib.Algebra.Group.Nat.Defs
import Mathlib.Data.List.Induction
import Mathlib.Tactic.Common

/-!
# Decimal numerals

Lists of decimal digits, with `Nat.ofDigitChars 10` for the number they write and
`Nat.toDigits 10` for the numeral of a number, which has no leading zeros.

Results:
* `ofDigitChars_append`: the number that two lists of digits write together.
* `toDigits_ofDigitChars`: a numeral without leading zeros is that of its number.
-/

namespace Numerals

variable {c : Char} {l m : List Char}

/-- No digit but the last one of a lone zero may be a zero at the front. -/
def Canonical (l : List Char) : Prop := l ≠ [] ∧ (l.head? = some '0' → l.length = 1)

theorem digitChar_of_isDigit (h : c.isDigit = true) : (c.toNat - '0'.toNat).digitChar = c := by
  have hall : ∀ d < 10, Nat.digitChar d = Char.ofNat (48 + d) := by decide
  obtain ⟨hlow, hhigh⟩ := Char.isDigit_iff_toNat.mp h
  change 48 ≤ c.toNat at hlow
  change c.toNat ≤ 57 at hhigh
  show Nat.digitChar (c.toNat - 48) = c
  rw [hall _ (by omega), Nat.add_sub_cancel' hlow, Char.ofNat_toNat]

theorem digit_lt (h : c.isDigit = true) : c.toNat - '0'.toNat < 10 := by
  obtain ⟨hlow, hhigh⟩ := Char.isDigit_iff_toNat.mp h
  change c.toNat ≤ 57 at hhigh
  show c.toNat - 48 < 10
  omega

theorem eq_zero_of_digit (h : c.isDigit = true) (h0 : c.toNat - '0'.toNat = 0) : c = '0' := by
  rw [← digitChar_of_isDigit h, h0]
  rfl

theorem ofDigitChars_append (l m : List Char) :
    Nat.ofDigitChars 10 (l ++ m) 0 =
      Nat.ofDigitChars 10 l 0 * 10 ^ m.length + Nat.ofDigitChars 10 m 0 := by
  rw [Nat.ofDigitChars_append, Nat.ofDigitChars_eq_ofDigitChars_zero, Nat.mul_comm]

theorem ofDigitChars_concat (l : List Char) (c : Char) :
    Nat.ofDigitChars 10 (l ++ [c]) 0 =
      10 * Nat.ofDigitChars 10 l 0 + (c.toNat - '0'.toNat) := by
  rw [Nat.ofDigitChars_append, Nat.ofDigitChars_cons, Nat.ofDigitChars_nil]

theorem ofDigitChars_pos (hd : ∀ c ∈ l, c.isDigit = true) (hne : l ≠ [])
    (hhead : l.head? ≠ some '0') : 0 < Nat.ofDigitChars 10 l 0 := by
  cases l with
  | nil => exact absurd rfl hne
  | cons c l =>
    have hc := hd c List.mem_cons_self
    have hpos : 0 < c.toNat - '0'.toNat := by
      by_contra h0
      exact hhead (congrArg some (eq_zero_of_digit hc (by omega)))
    rw [← List.singleton_append, ofDigitChars_append, Nat.ofDigitChars_cons,
      Nat.ofDigitChars_nil, Nat.mul_zero, Nat.zero_add]
    exact Nat.add_pos_left (Nat.mul_pos hpos (Nat.pow_pos (by decide))) _

/-- By recursion on the digits from the last one on. -/
theorem toDigits_ofDigitChars (hd : ∀ c ∈ l, c.isDigit = true) (hcan : Canonical l) :
    Nat.toDigits 10 (Nat.ofDigitChars 10 l 0) = l := by
  induction l using List.reverseRecOn with
  | nil => exact absurd rfl hcan.1
  | append_singleton l c ih =>
    have hc := hd c (List.mem_append_right _ List.mem_cons_self)
    rw [ofDigitChars_concat]
    by_cases hl : l = []
    · subst hl
      rw [Nat.ofDigitChars_nil, Nat.mul_zero, Nat.zero_add, Nat.toDigits_of_lt_base (digit_lt hc),
        digitChar_of_isDigit hc]
      rfl
    · have hhead : l.head? ≠ some '0' := by
        intro h0
        have hlen := hcan.2 (by rw [List.head?_append, h0, Option.some_or])
        rw [List.length_append, List.length_singleton] at hlen
        have := List.length_pos_iff.mpr hl
        omega
      have hdl : ∀ c ∈ l, c.isDigit = true := fun c h => hd c (List.mem_append_left _ h)
      rw [← Nat.toDigits_append_toDigits (by decide) (ofDigitChars_pos hdl hl hhead)
        (digit_lt hc), Nat.toDigits_of_lt_base (digit_lt hc), digitChar_of_isDigit hc,
        ih hdl ⟨hl, fun h0 => absurd h0 hhead⟩]

end Numerals
