import Mathlib.Tactic.Common
import Mathlib.Tactic.NormNum
import Mathlib.Data.Int.Init

/-!
# Fixed-width arithmetic on `ℕ` and `ℤ`

Unsigned words are natural numbers, signed words are integers; the operations
clamp (`sat…`), wrap (`wrap…`) or fail (`checked…`) exactly where the
fixed-width operations do.

Results:
* `wrapI128_of_mem`, `satAddI128_of_mem`, `checkedI128_of_mem`: within the range
  the operations are the exact ones.
* `wrapI128_mem`: what wraps stays in the range.
* `tdiv_wrapI128_eq_fdiv_iff`: when the quotient of a wrapped number is exact.
* `checkedI128_eq_none`: a checked operation fails above the range.
* `checkedI128_eq_some`: where it does not fail it is exact.
-/

namespace MachineInt

/-- `u32::MAX`. -/
def u32Max : ℕ := 2 ^ 32 - 1

/-- `u64::MAX`. -/
def u64Max : ℕ := 2 ^ 64 - 1

/-- `i128::MAX`. -/
def i128Max : ℤ := 2 ^ 127 - 1

/-- `i128::MIN`. -/
def i128Min : ℤ := -2 ^ 127

/-- `u32::saturating_add`. -/
def satAddU32 (a b : ℕ) : ℕ := min (a + b) u32Max

/-- `u32::saturating_mul`. -/
def satMulU32 (a b : ℕ) : ℕ := min (a * b) u32Max

/-- A `u32` addition with overflow checks. -/
def checkedAddU32 (a b : ℕ) : Option ℕ := if a + b ≤ u32Max then some (a + b) else none

/-- A `u32` result without overflow checks. -/
def wrapU32 (n : ℕ) : ℕ := n % (u32Max + 1)

/-- `u64::saturating_add`. -/
def satAddU64 (a b : ℕ) : ℕ := min (a + b) u64Max

/-- The nearest `i128` to `x`. -/
def clampI128 (x : ℤ) : ℤ := max i128Min (min x i128Max)

/-- `i128::saturating_add`. -/
def satAddI128 (a b : ℤ) : ℤ := clampI128 (a + b)

/-- `i128::saturating_sub`. -/
def satSubI128 (a b : ℤ) : ℤ := clampI128 (a - b)

/-- The `i128` congruent to `x` modulo `2^128`: two's complement wrap-around. -/
def wrapI128 (x : ℤ) : ℤ := x.bmod (2 ^ 128)

/-- `x` as an `i128`, if it is one. -/
def checkedI128 (x : ℤ) : Option ℤ := if i128Min ≤ x ∧ x ≤ i128Max then some x else none

/-- `i128::checked_add`. -/
def checkedAddI128 (a b : ℤ) : Option ℤ := checkedI128 (a + b)

/-- `i128::checked_sub`. -/
def checkedSubI128 (a b : ℤ) : Option ℤ := checkedI128 (a - b)

/-- `i128::checked_mul`. -/
def checkedMulI128 (a b : ℤ) : Option ℤ := checkedI128 (a * b)

/-- `i128::checked_div`: division truncates towards zero. -/
def checkedDivI128 (a b : ℤ) : Option ℤ := if b = 0 then none else checkedI128 (a.tdiv b)

theorem satAddU32_of_lt {a : ℕ} (ha : a < u32Max) : satAddU32 a 1 = a + 1 := by
  unfold satAddU32; omega

theorem wrapU32_of_le {n : ℕ} (h : n ≤ u32Max) : wrapU32 n = n :=
  Nat.mod_eq_of_lt (Nat.lt_succ_of_le h)

theorem wrapU32_of_lt {n : ℕ} (h : u32Max < n) (h' : n ≤ 2 * u32Max + 1) :
    wrapU32 n = n - (u32Max + 1) := by
  unfold wrapU32
  rw [Nat.mod_eq_sub_mod h, Nat.mod_eq_of_lt (by omega)]

theorem clampI128_mem (x : ℤ) : i128Min ≤ clampI128 x ∧ clampI128 x ≤ i128Max := by
  unfold clampI128 i128Min i128Max; omega

theorem clampI128_of_mem {x : ℤ} (h1 : i128Min ≤ x) (h2 : x ≤ i128Max) : clampI128 x = x := by
  unfold clampI128; omega

theorem satAddI128_of_mem {a b : ℤ} (h1 : i128Min ≤ a + b) (h2 : a + b ≤ i128Max) :
    satAddI128 a b = a + b :=
  clampI128_of_mem h1 h2

theorem le_satAddI128 {a b : ℤ} (ha : a ≤ i128Max) (hb : 0 ≤ b) : a ≤ satAddI128 a b := by
  unfold satAddI128 clampI128; omega

theorem satAddI128_le {a b : ℤ} (h : 0 ≤ a + b) : satAddI128 a b ≤ a + b := by
  unfold satAddI128 clampI128 i128Min; omega

theorem satSubI128_le {a b : ℤ} (h : i128Min ≤ a - b) : satSubI128 a b ≤ a - b := by
  unfold satSubI128 clampI128; omega

theorem satAddI128_nonneg {a b : ℤ} (ha : 0 ≤ a) (hb : 0 ≤ b) : 0 ≤ satAddI128 a b := by
  unfold satAddI128 clampI128 i128Max; omega

/-- Adding to a saturated sum. -/
theorem satAddI128_min {a b : ℤ} (ha : 0 ≤ a) (hb : 0 ≤ b) :
    satAddI128 (min a i128Max) b = min (a + b) i128Max := by
  unfold satAddI128 clampI128 i128Min i128Max; omega

theorem wrapI128_of_mem {x : ℤ} (h1 : i128Min ≤ x) (h2 : x ≤ i128Max) : wrapI128 x = x := by
  unfold wrapI128 Int.bmod
  unfold i128Min at h1
  unfold i128Max at h2
  norm_num
  omega

theorem wrapI128_mem (x : ℤ) : i128Min ≤ wrapI128 x ∧ wrapI128 x ≤ i128Max := by
  unfold wrapI128 Int.bmod i128Min i128Max
  norm_num
  omega

theorem checkedAddU32_eq_some {a b c : ℕ} (h : checkedAddU32 a b = some c) : c = a + b := by
  unfold checkedAddU32 at h
  split_ifs at h
  exact (Option.some.inj h).symm

theorem checkedI128_eq_some {x y : ℤ} (h : checkedI128 x = some y) : y = x := by
  unfold checkedI128 at h
  split_ifs at h
  exact (Option.some.inj h).symm

theorem checkedI128_le {x y : ℤ} (h : checkedI128 x = some y) : x ≤ i128Max := by
  unfold checkedI128 at h
  split_ifs at h with hx
  exact hx.2

theorem checkedDivI128_eq_some {a b q : ℤ} (h : checkedDivI128 a b = some q) : q = a.tdiv b := by
  unfold checkedDivI128 at h
  split_ifs at h
  exact checkedI128_eq_some h

theorem checkedI128_of_mem {x : ℤ} (h1 : i128Min ≤ x) (h2 : x ≤ i128Max) :
    checkedI128 x = some x := by
  unfold checkedI128; rw [if_pos ⟨h1, h2⟩]

theorem checkedI128_eq_none {x : ℤ} (h : i128Max < x) : checkedI128 x = none := by
  unfold checkedI128; rw [if_neg (by omega)]

theorem checkedI128_eq_none_of_lt {x : ℤ} (h : x < i128Min) : checkedI128 x = none := by
  unfold checkedI128; rw [if_neg (by omega)]

theorem checkedDivI128_of_mem {a b : ℤ} (h1 : i128Min ≤ a) (h2 : a ≤ i128Max) (hb : 1 < b) :
    checkedDivI128 a b = some (a.tdiv b) := by
  have habs := Int.natAbs_tdiv_le_natAbs a b
  unfold checkedDivI128
  rw [if_neg (by omega)]
  rcases le_total 0 a with h0 | h0
  · have hq : 0 ≤ a.tdiv b := Int.tdiv_nonneg h0 (by omega)
    exact checkedI128_of_mem (by unfold i128Min; omega) (by omega)
  · have hq : 0 ≤ (-a).tdiv b := Int.tdiv_nonneg (by omega) (by omega)
    rw [Int.neg_tdiv] at hq
    exact checkedI128_of_mem (by omega) (by unfold i128Max; omega)

theorem checkedDivI128_of_nonneg {a b : ℤ} (ha : 0 ≤ a) (ha' : a ≤ i128Max) (hb : 0 < b) :
    checkedDivI128 a b = some (a / b) := by
  have h1 : 0 ≤ a / b := Int.ediv_nonneg ha hb.le
  have h2 : a / b ≤ a := Int.ediv_le_self _ ha
  unfold checkedDivI128
  rw [if_neg hb.ne', Int.tdiv_eq_ediv_of_nonneg ha]
  exact checkedI128_of_mem (by unfold i128Min; omega) (by omega)

/-! ## Quotients of wrapped products -/

theorem wrapI128_eq_add (x : ℤ) : ∃ k : ℤ, wrapI128 x = x + 2 ^ 128 * k := by
  refine ⟨(wrapI128 x - x) / 2 ^ 128, ?_⟩
  unfold wrapI128 Int.bmod
  norm_num
  omega

/-- Rounding down and rounding towards zero agree from zero on, and where the
    division is exact. -/
theorem tdiv_eq_fdiv_iff {x d : ℤ} (hd : 0 < d) : x.tdiv d = x.fdiv d ↔ 0 ≤ x ∨ d ∣ x := by
  have ht := Int.mul_tdiv_add_tmod x d
  have hf := Int.mul_fdiv_add_fmod x d
  constructor
  · intro heq
    rcases le_or_gt 0 x with h0 | h0
    · exact .inl h0
    · have h1 : 0 ≤ (-x).tmod d := Int.tmod_nonneg d (by omega)
      rw [Int.neg_tmod] at h1
      have h2 := Int.fmod_nonneg_of_pos x hd
      rw [heq] at ht
      exact .inr (Int.dvd_of_tmod_eq_zero (by omega))
  · rintro (h0 | hdvd)
    · rw [Int.tdiv_eq_ediv_of_nonneg h0, Int.fdiv_eq_ediv_of_nonneg x hd.le]
    · rw [Int.tmod_eq_zero_of_dvd hdvd, add_zero] at ht
      rw [Int.fmod_eq_zero_of_dvd hdvd, add_zero] at hf
      exact Int.eq_of_mul_eq_mul_left hd.ne' (ht.trans hf.symm)

/-- The quotient of a wrapped number is that of the number, rounded down, only
    if nothing was wrapped. -/
theorem tdiv_wrapI128_eq_fdiv_iff {x d : ℤ} (hd : 0 < d) (hmax : d ≤ i128Max) :
    (wrapI128 x).tdiv d = x.fdiv d ↔ (i128Min ≤ x ∧ x ≤ i128Max) ∧ (0 ≤ x ∨ d ∣ x) := by
  by_cases hx : i128Min ≤ x ∧ x ≤ i128Max
  · rw [wrapI128_of_mem hx.1 hx.2, tdiv_eq_fdiv_iff hd, and_iff_right hx]
  · refine iff_of_false (fun heq => hx ?_) fun h => hx h.1
    obtain ⟨k, hk⟩ := wrapI128_eq_add x
    have hmem := wrapI128_mem x
    have ht := Int.mul_tdiv_add_tmod (wrapI128 x) d
    have hf := Int.mul_fdiv_add_fmod x d
    have h1 := Int.tmod_lt_of_pos (wrapI128 x) hd
    have h2 : -d < (wrapI128 x).tmod d := Int.lt_tmod_of_pos (wrapI128 x) hd
    have h3 := Int.fmod_nonneg_of_pos x hd
    have h4 := Int.fmod_lt_of_pos x hd
    rw [heq] at ht
    -- both remainders are smaller than `d`, and the numbers differ by a multiple of `2^128`
    have hzero : k = 0 := by unfold i128Max at hmax; omega
    rw [hzero, mul_zero, add_zero] at hk
    rwa [hk] at hmem

end MachineInt
