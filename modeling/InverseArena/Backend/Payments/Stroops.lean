import InverseArena.Backend.Payments.Creation
import InverseArena.Library.Numerals
import Mathlib.Data.List.TakeWhile
import Mathlib.Data.Rat.Cast.Order
import Mathlib.Tactic.NormNum
import Mathlib.Tactic.Positivity

/-!
# Amounts in stroops

`toStroops` of `paymentService.ts` (lines 49-61) splits an amount at its point, pads the
fraction to seven digits and strips the zeros in front, in place of a product by `10 ^ 7`.

Results:
* `combinedDigits_spec`: what is combined is the numeral of the product.
* `toStroops_exact`: positive amounts become that numeral, and zero is refused.
-/

namespace InverseArena.Backend.Payments

open Numerals

/-- The digits before the point. -/
def wholeDigits (cs : List Char) : List Char := cs.takeWhile isDigit

/-- The digits after the point, if there is one. -/
def fractionDigits (cs : List Char) : List Char := (cs.dropWhile isDigit).tail

/-- The number that a decimal writes. -/
def amountValue (cs : List Char) : ℚ :=
  decimal (wholeDigits cs) + decimal (fractionDigits cs) / 10 ^ (fractionDigits cs).length

/-- The same in stroops. -/
def stroopsOf (cs : List Char) : ℕ :=
  decimal (wholeDigits cs) * 10 ^ 7 +
    decimal (fractionDigits cs) * 10 ^ (7 - (fractionDigits cs).length)

variable {cs : List Char} {c : Char}

theorem decimal_eq (l : List Char) : decimal l = Nat.ofDigitChars 10 l 0 := rfl

/-! ## The grammar -/

/-- What `AMOUNT_REGEX` accepts. -/
structure Amount (cs : List Char) : Prop where
  nonempty : wholeDigits cs ≠ []
  whole : ∀ c ∈ wholeDigits cs, isDigit c = true
  fraction : ∀ c ∈ fractionDigits cs, isDigit c = true
  length : (fractionDigits cs).length ≤ 7
  split : cs = wholeDigits cs ∧ fractionDigits cs = [] ∨
    cs = wholeDigits cs ++ '.' :: fractionDigits cs

theorem amount_of_isAmount (h : isAmount cs = true) : Amount cs := by
  have hwhole : ∀ c ∈ wholeDigits cs, isDigit c = true := fun c hc => List.mem_takeWhile_imp hc
  have hcs : wholeDigits cs ++ cs.dropWhile isDigit = cs := List.takeWhile_append_dropWhile
  unfold isAmount at h
  dsimp only at h
  rw [Bool.and_eq_true, decide_eq_true_eq] at h
  obtain ⟨hne, hrest⟩ := h
  cases hdrop : cs.dropWhile isDigit with
  | nil =>
    have hfraction : fractionDigits cs = [] := by
      unfold fractionDigits
      rw [hdrop]
      rfl
    rw [hdrop, List.append_nil] at hcs
    exact {
      nonempty := hne
      whole := hwhole
      fraction := by rw [hfraction]; exact fun _ h => nomatch h
      length := by rw [hfraction]; exact Nat.zero_le _
      split := .inl ⟨hcs.symm, hfraction⟩ }
  | cons c rest =>
    rw [hdrop] at hrest hcs
    have hfraction : fractionDigits cs = rest := by
      unfold fractionDigits
      rw [hdrop]
      rfl
    split at hrest
    · rename_i heq
      cases heq
    · rename_i fraction heq
      cases heq
      rw [Bool.and_eq_true, decide_eq_true_eq, List.all_eq_true] at hrest
      exact {
        nonempty := hne
        whole := hwhole
        fraction := by rw [hfraction]; exact hrest.2
        length := by rw [hfraction]; exact hrest.1
        split := .inr (by rw [hfraction]; exact hcs.symm) }
    · cases hrest

/-! ## The digits -/

/-- Stripping zeros keeps the number and leaves its numeral. -/
theorem stripZeros_spec {l : List Char} (hd : ∀ c ∈ l, c.isDigit = true) (hne : l ≠ []) :
    (∀ c ∈ stripZeros l, c.isDigit = true) ∧ Canonical (stripZeros l) ∧
      decimal (stripZeros l) = decimal l := by
  fun_induction stripZeros l with
  | case1 c cs hc ih =>
    obtain ⟨hd', hcan, hvalue⟩ := ih (fun d hmem => hd d (List.mem_cons_of_mem _ hmem)) (by simp)
    exact ⟨hd', hcan, hvalue⟩
  | case2 c cs hc => exact absurd (hd c (by simp)) hc
  | case3 l hl =>
    refine ⟨hd, ⟨hne, fun hzero => ?_⟩, rfl⟩
    match l, hne with
    | [_], _ => rfl
    | c :: d :: rest, _ =>
      cases hzero
      exact absurd rfl (hl d rest)

theorem stripZeros_eq {l : List Char} (hd : ∀ c ∈ l, c.isDigit = true) (hne : l ≠ []) :
    stripZeros l = Nat.toDigits 10 (decimal l) := by
  obtain ⟨hd', hcan, hvalue⟩ := stripZeros_spec hd hne
  rw [← hvalue, decimal_eq, toDigits_ofDigitChars hd' hcan]

theorem take_padded {fraction : List Char} (h : fraction.length ≤ 7) :
    (fraction ++ "0000000".toList).take 7 =
      fraction ++ List.replicate (7 - fraction.length) '0' := by
  have hzeros : "0000000".toList = List.replicate 7 '0' := by decide
  rw [hzeros, List.take_append, List.take_of_length_le h, List.take_replicate,
    min_eq_left (Nat.sub_le _ _)]

theorem decimal_padded (fraction : List Char) (k : ℕ) :
    decimal (fraction ++ List.replicate k '0') = decimal fraction * 10 ^ k := by
  rw [decimal_eq, ofDigitChars_append, Nat.ofDigitChars_replicate_zero, Nat.mul_zero,
    Nat.add_zero, List.length_replicate]
  rfl

theorem splitOn_amount (h : Amount cs) :
    (cs.splitOn '.').headD [] = wholeDigits cs ∧
      (cs.splitOn '.').tail.headD [] = fractionDigits cs := by
  have hpoint : ∀ l : List Char, (∀ c ∈ l, isDigit c = true) → '.' ∉ l := by
    intro l hl hmem
    exact absurd (hl '.' hmem) (by decide)
  rcases h.split with ⟨hcs, hnone⟩ | hcs
  · have hsplit : cs.splitOn '.' = [wholeDigits cs] := by
      conv_lhs => rw [hcs]
      exact List.splitOn_eq_singleton (hpoint _ h.whole)
    rw [hsplit, hnone]
    exact ⟨rfl, rfl⟩
  · have hsplit : cs.splitOn '.' = [wholeDigits cs, fractionDigits cs] := by
      conv_lhs => rw [hcs]
      rw [List.splitOn_append_cons_self, List.splitOn_eq_singleton (hpoint _ h.whole),
        List.splitOn_eq_singleton (hpoint _ h.fraction)]
      rfl
    rw [hsplit]
    exact ⟨rfl, rfl⟩

/-- The digits are the numeral of the amount in stroops. -/
theorem combinedDigits_spec {amount : String} (h : Amount amount.toList) :
    combinedDigits amount = Nat.toDigits 10 (stroopsOf amount.toList) := by
  obtain ⟨hwhole, hfraction⟩ := splitOn_amount h
  unfold combinedDigits
  dsimp only
  rw [hwhole, hfraction, take_padded h.length, stripZeros_eq]
  · congr 1
    have hlen : (fractionDigits amount.toList ++
        List.replicate (7 - (fractionDigits amount.toList).length) '0').length = 7 := by
      rw [List.length_append, List.length_replicate, Nat.add_sub_cancel' h.length]
    rw [decimal_eq, ofDigitChars_append, hlen, ← decimal_eq, ← decimal_eq, decimal_padded]
    rfl
  · intro c hc
    rcases List.mem_append.mp hc with hc | hc
    · exact h.whole c hc
    · rcases List.mem_append.mp hc with hc | hc
      · exact h.fraction c hc
      · rw [List.eq_of_mem_replicate hc]
        decide
  · exact fun hnil => h.nonempty (List.append_eq_nil_iff.mp hnil).1

theorem stroopsOf_eq (h : Amount cs) : (stroopsOf cs : ℚ) = amountValue cs * 10 ^ 7 := by
  obtain ⟨k, hk⟩ := Nat.exists_eq_add_of_le h.length
  unfold stroopsOf amountValue
  rw [show 7 - (fractionDigits cs).length = k by omega]
  have hpow : (10 : ℚ) ^ 7 = 10 ^ (fractionDigits cs).length * 10 ^ k := by rw [← pow_add, ← hk]
  have hne : (10 : ℚ) ^ (fractionDigits cs).length ≠ 0 := by positivity
  rw [add_mul]
  push_cast
  congr 1
  rw [hpow, ← mul_assoc, div_mul_cancel₀ _ hne]

/-! ## Main result -/

/-- Every amount that the schema accepts: if it is positive it becomes the numeral of the
    amount times `10 ^ 7`, and zero is refused. -/
theorem toStroops_exact {amount : String} (h : isAmount amount.toList = true) :
    (0 < amountValue amount.toList → ∃ n : ℕ, (n : ℚ) = amountValue amount.toList * 10 ^ 7 ∧
      toStroops amount = .ok (toString n)) ∧
    (amountValue amount.toList = 0 →
      toStroops amount = .error (newError "Amount must be greater than zero")) := by
  have ha := amount_of_isAmount h
  have hdigits := combinedDigits_spec ha
  have hvalue := stroopsOf_eq ha
  have hall : (combinedDigits amount).all isDigit = true := by
    rw [hdigits, List.all_eq_true]
    exact fun c hc => Nat.isDigit_of_mem_toDigits (by decide) (by decide) hc
  have hne : combinedDigits amount ≠ [] := by
    rw [hdigits]
    exact Nat.toDigits_ne_nil
  have hdecimal : decimal (combinedDigits amount) = stroopsOf amount.toList := by
    rw [hdigits, decimal_eq, Nat.ofDigitChars_ten_toDigits]
  unfold toStroops
  dsimp only
  rw [if_neg (not_not_intro ⟨hne, hall⟩), hdecimal]
  constructor
  · intro hpos
    have hn : stroopsOf amount.toList ≠ 0 := by
      intro h0
      rw [h0] at hvalue
      have hpos' : 0 < amountValue amount.toList * 10 ^ 7 := mul_pos hpos (by norm_num)
      rw [← hvalue, Nat.cast_zero] at hpos'
      exact lt_irrefl _ hpos'
    refine ⟨stroopsOf amount.toList, hvalue, ?_⟩
    rw [if_neg hn, hdigits, Nat.toString_eq_ofList_toDigits]
  · intro hzero
    rw [hzero, zero_mul] at hvalue
    rw [if_pos (by exact_mod_cast hvalue)]

/-- Zeros in front, and a fraction that is not full. -/
theorem toStroops_padded : ∃ n : ℕ, (n : ℚ) = amountValue "0012.5".toList * 10 ^ 7 ∧
    toStroops "0012.5" = .ok (toString n) := by
  have hamount : isAmount "0012.5".toList = true := by decide
  refine (toStroops_exact hamount).1 ?_
  have hvalue : amountValue "0012.5".toList = 25 / 2 := by decide +kernel
  rw [hvalue]
  norm_num

example : (toStroops "0012.5").toOption = some "125000000" := by decide +kernel

end InverseArena.Backend.Payments
