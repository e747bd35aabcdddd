import Mathlib.Algebra.Order.Floor.Ring
import Mathlib.Data.Int.Log
import Mathlib.Data.Rat.Floor
import Mathlib.Tactic.Linarith
import Mathlib.Tactic.NormNum
import Mathlib.Tactic.Positivity

/-!
# Rounding to doubles

The nearest multiple of a power of two that leaves 53 significant bits, and ties to the
even one, as IEEE 754 has it for results within the range of the doubles; below `2 ^ (-1022)`
the spacing stays at `2 ^ (-1074)`. Doubles are given by the rationals that they stand for.

Results:
* `halfEven_mono`, `nearest_mono`: rounding keeps the order.
* `nearest_intCast`: the integers below `2 ^ 53` are doubles.
* `nearest_of_near`: a number that is off from a double by less than one part in `2 ^ 54` is
  rounded to it.
-/

namespace Doubles

/-! ## To integers -/

/-- The nearest integer, and the even one of two. -/
def halfEven (x : ℚ) : ℤ :=
  if Int.fract x < 1 / 2 then ⌊x⌋
  else if 1 / 2 < Int.fract x then ⌊x⌋ + 1
  else if ⌊x⌋ % 2 = 0 then ⌊x⌋
  else ⌊x⌋ + 1

theorem halfEven_eq_or (x : ℚ) : halfEven x = ⌊x⌋ ∨ halfEven x = ⌊x⌋ + 1 := by
  unfold halfEven
  split_ifs <;> simp

theorem floor_le_halfEven (x : ℚ) : ⌊x⌋ ≤ halfEven x := by
  rcases halfEven_eq_or x with h | h <;> omega

theorem halfEven_le_floor_add_one (x : ℚ) : halfEven x ≤ ⌊x⌋ + 1 := by
  rcases halfEven_eq_or x with h | h <;> omega

@[simp] theorem halfEven_intCast (n : ℤ) : halfEven (n : ℚ) = n := by
  simp [halfEven]

/-- No integer is nearer. -/
theorem abs_halfEven_sub_le (x : ℚ) : |(halfEven x : ℚ) - x| ≤ 1 / 2 := by
  have hx : x = ⌊x⌋ + Int.fract x := (Int.floor_add_fract x).symm
  have h0 := Int.fract_nonneg x
  have h1 := Int.fract_lt_one x
  unfold halfEven
  rw [abs_le]
  split_ifs <;> push_cast <;> constructor <;> linarith

theorem halfEven_neg (x : ℚ) : halfEven (-x) = -halfEven x := by
  rcases eq_or_ne (Int.fract x) 0 with hzero | hne
  · obtain ⟨n, rfl⟩ := Int.fract_eq_zero_iff.mp hzero
    rw [← Int.cast_neg, halfEven_intCast, halfEven_intCast]
  · have hfract := Int.fract_neg hne
    have hfloor : ⌊-x⌋ = -⌊x⌋ - 1 := by
      have hsum : (⌊-x⌋ : ℚ) = ((-⌊x⌋ - 1 : ℤ) : ℚ) := by
        have h1 := Int.floor_add_fract x
        have h2 := Int.floor_add_fract (-x)
        push_cast
        linarith
      exact_mod_cast hsum
    unfold halfEven
    rw [hfract, hfloor]
    split_ifs <;> first | omega | linarith

theorem halfEven_mono {x y : ℚ} (hxy : x ≤ y) : halfEven x ≤ halfEven y := by
  rcases (Int.floor_mono hxy).lt_or_eq with hlt | heq
  · have hx := halfEven_le_floor_add_one x
    have hy := floor_le_halfEven y
    omega
  · -- Between the same two integers the larger one has the larger fraction.
    have hfract : Int.fract x ≤ Int.fract y := by
      unfold Int.fract
      rw [heq]
      linarith
    unfold halfEven
    rw [heq]
    split_ifs <;> first | omega | linarith

/-! ## To doubles -/

/-- The exponent of the last place: 52 below that of the number, and at least -1074. -/
def lastPlace (x : ℚ) : ℤ := max (Int.log 2 |x| - 52) (-1074)

/-- The nearest number with 53 significant bits, if it does not overflow. -/
def nearest (x : ℚ) : ℚ := halfEven (x / 2 ^ lastPlace x) * 2 ^ lastPlace x

@[simp] theorem nearest_zero : nearest 0 = 0 := by
  have hzero : halfEven 0 = 0 := halfEven_intCast 0
  simp [nearest, hzero]

theorem nearest_neg (x : ℚ) : nearest (-x) = -nearest x := by
  have hplace : lastPlace (-x) = lastPlace x := by rw [lastPlace, lastPlace, abs_neg]
  rw [nearest, nearest, hplace, neg_div, halfEven_neg, Int.cast_neg, neg_mul]

theorem two_zpow_pos (e : ℤ) : (0 : ℚ) < 2 ^ e := zpow_pos two_pos e

/-- A multiple of the last place is a double. -/
theorem nearest_of_multiple {x : ℚ} {m : ℤ} (hx : x = m * 2 ^ lastPlace x) : nearest x = x := by
  have hdiv : x / 2 ^ lastPlace x = m :=
    (div_eq_iff (two_zpow_pos _).ne').mpr hx
  rw [nearest, hdiv, halfEven_intCast]
  exact hx.symm

/-- A power of two that is no smaller than the last place stays below what is rounded, if
    it was. -/
theorem zpow_le_nearest {x : ℚ} {e : ℤ} (he : lastPlace x ≤ e) (hx : 2 ^ e ≤ x) :
    2 ^ e ≤ nearest x := by
  obtain ⟨k, rfl⟩ := Int.le.dest he
  have hpow : (2 : ℚ) ^ (lastPlace x + k) = ((2 ^ k : ℤ) : ℚ) * 2 ^ lastPlace x := by
    rw [zpow_add₀ two_ne_zero, mul_comm]
    push_cast
    rfl
  have hround : (2 ^ k : ℤ) ≤ halfEven (x / 2 ^ lastPlace x) := by
    rw [← halfEven_intCast (2 ^ k)]
    refine halfEven_mono ((le_div_iff₀ (two_zpow_pos _)).mpr ?_)
    rw [← hpow]
    exact hx
  rw [hpow, nearest]
  exact mul_le_mul_of_nonneg_right (by exact_mod_cast hround) (two_zpow_pos _).le

theorem nearest_le_zpow {x : ℚ} {e : ℤ} (he : lastPlace x ≤ e) (hx : x ≤ 2 ^ e) :
    nearest x ≤ 2 ^ e := by
  obtain ⟨k, rfl⟩ := Int.le.dest he
  have hpow : (2 : ℚ) ^ (lastPlace x + k) = ((2 ^ k : ℤ) : ℚ) * 2 ^ lastPlace x := by
    rw [zpow_add₀ two_ne_zero, mul_comm]
    push_cast
    rfl
  have hround : halfEven (x / 2 ^ lastPlace x) ≤ (2 ^ k : ℤ) := by
    rw [← halfEven_intCast (2 ^ k)]
    refine halfEven_mono ((div_le_iff₀ (two_zpow_pos _)).mpr ?_)
    rw [← hpow]
    exact hx
  rw [hpow, nearest]
  exact mul_le_mul_of_nonneg_right (by exact_mod_cast hround) (two_zpow_pos _).le

theorem nearest_nonneg {x : ℚ} (hx : 0 ≤ x) : 0 ≤ nearest x := by
  have hround : (0 : ℤ) ≤ halfEven (x / 2 ^ lastPlace x) := by
    rw [← halfEven_intCast 0, Int.cast_zero]
    exact halfEven_mono (div_nonneg hx (two_zpow_pos _).le)
  exact mul_nonneg (by exact_mod_cast hround) (two_zpow_pos _).le

theorem lastPlace_mono {x y : ℚ} (hx : 0 < x) (hxy : x ≤ y) : lastPlace x ≤ lastPlace y := by
  have hlog : Int.log 2 |x| ≤ Int.log 2 |y| := by
    rw [abs_of_pos hx, abs_of_pos (hx.trans_le hxy)]
    exact Int.log_mono_right hx hxy
  exact max_le_max (Int.sub_le_sub_right hlog 52) (le_refl _)

/-- Rounding keeps the order of the numbers that are not negative. -/
theorem nearest_mono {x y : ℚ} (hx : 0 ≤ x) (hxy : x ≤ y) : nearest x ≤ nearest y := by
  rcases hx.eq_or_lt with rfl | hpos
  · rw [nearest_zero]
    exact nearest_nonneg hxy
  · rcases (lastPlace_mono hpos hxy).eq_or_lt with heq | hlt
    · unfold nearest
      rw [← heq]
      have hround := halfEven_mono (div_le_div_of_nonneg_right hxy (two_zpow_pos (lastPlace x)).le)
      exact mul_le_mul_of_nonneg_right (by exact_mod_cast hround) (two_zpow_pos _).le
    · -- The power of two that `y` begins with lies between them, also after rounding.
      have hy : 0 < y := hpos.trans_le hxy
      have hplaceY : lastPlace y = Int.log 2 y - 52 := by
        unfold lastPlace at hlt ⊢
        rw [abs_of_pos hy] at hlt ⊢
        omega
      have hlog : Int.log 2 x < Int.log 2 y := by
        rw [hplaceY] at hlt
        unfold lastPlace at hlt
        rw [abs_of_pos hpos] at hlt
        omega
      have hxe : x ≤ 2 ^ Int.log 2 y := by
        have hbelow : x < ((2 : ℕ) : ℚ) ^ Int.log 2 y :=
          (Int.lt_zpow_iff_log_lt (by norm_num) hpos).mpr hlog
        exact_mod_cast hbelow.le
      have hye : 2 ^ Int.log 2 y ≤ y := by
        have hbelow : ((2 : ℕ) : ℚ) ^ Int.log 2 y ≤ y := Int.zpow_log_le_self (by norm_num) hy
        exact_mod_cast hbelow
      exact (nearest_le_zpow (by omega) hxe).trans (zpow_le_nearest (by omega) hye)

/-- The integers below `2 ^ 53` are doubles. -/
theorem nearest_intCast {n : ℤ} (hn : |n| < 2 ^ 53) : nearest n = n := by
  have hlog : Int.log 2 |(n : ℚ)| ≤ 52 := by
    rcases eq_or_ne n 0 with rfl | hne
    · simp
    · have hpos : 0 < |(n : ℚ)| := abs_pos.mpr (Int.cast_ne_zero.mpr hne)
      have hbound : |(n : ℚ)| < ((2 : ℕ) : ℚ) ^ (53 : ℤ) := by exact_mod_cast hn
      have hlt := (Int.lt_zpow_iff_log_lt (by norm_num) hpos).mp hbound
      omega
  obtain ⟨k, hk⟩ := Int.le.dest (show lastPlace n ≤ 0 from max_le (by omega) (by norm_num))
  refine nearest_of_multiple (m := n * 2 ^ k) ?_
  have hunit : (2 : ℚ) ^ k * 2 ^ lastPlace n = 1 := by
    rw [← zpow_natCast, ← zpow_add₀ two_ne_zero, add_comm, hk, zpow_zero]
  push_cast
  rw [mul_assoc, hunit, mul_one]

/-! ## Near a double -/

theorem halfEven_of_near {q : ℚ} {m : ℤ} (h : |q - m| < 1 / 2) : halfEven q = m := by
  have hround := abs_halfEven_sub_le q
  have hlt : |((halfEven q - m : ℤ) : ℚ)| < 1 := by
    rw [abs_lt] at h ⊢
    rw [abs_le] at hround
    push_cast
    constructor <;> linarith
  have hzero : halfEven q - m = 0 := Int.abs_lt_one_iff.mp (by exact_mod_cast hlt)
  omega

/-- A multiple of the last place of `y` that is less than half of it away. -/
theorem nearest_of_close {x y : ℚ} {m : ℤ} (hx : x = m * 2 ^ lastPlace y)
    (h : |y - x| < 2 ^ lastPlace y / 2) : nearest y = x := by
  have hpos := two_zpow_pos (lastPlace y)
  have hscaled : |y / 2 ^ lastPlace y - m| < 1 / 2 := by
    have hquot : y / 2 ^ lastPlace y - m = (y - x) / 2 ^ lastPlace y := by
      rw [hx, sub_div, mul_div_cancel_right₀ _ hpos.ne']
    rw [hquot, abs_div, abs_of_pos hpos, div_lt_iff₀ hpos]
    linarith
  rw [nearest, halfEven_of_near hscaled, hx]

theorem log_eq {x : ℚ} {p : ℤ} (hlow : 2 ^ p ≤ x) (hhigh : x < 2 ^ (p + 1)) :
    Int.log 2 x = p := by
  have hpos : 0 < x := (two_zpow_pos p).trans_le hlow
  have hle : p ≤ Int.log 2 x :=
    (Int.zpow_le_iff_le_log (by norm_num) hpos).mp (by exact_mod_cast hlow)
  have hlt : Int.log 2 x < p + 1 :=
    (Int.lt_zpow_iff_log_lt (by norm_num) hpos).mp (by exact_mod_cast hhigh)
  omega

theorem zpow_le_of_pos {x : ℚ} (hx : 0 < x) : 2 ^ Int.log 2 x ≤ x := by
  have h : ((2 : ℕ) : ℚ) ^ Int.log 2 x ≤ x := Int.zpow_log_le_self (by norm_num) hx
  exact_mod_cast h

theorem lt_zpow_log (x : ℚ) : x < 2 ^ (Int.log 2 x + 1) := by
  have h : x < ((2 : ℕ) : ℚ) ^ (Int.log 2 x + 1) := Int.lt_zpow_succ_log_self (by norm_num) x
  exact_mod_cast h

theorem two_zpow_mono {a b : ℤ} (h : a ≤ b) : (2 : ℚ) ^ a ≤ 2 ^ b :=
  zpow_le_zpow_right₀ one_le_two h

theorem two_zpow_succ (a : ℤ) : (2 : ℚ) ^ (a + 1) = 2 * 2 ^ a := by
  rw [zpow_add_one₀ two_ne_zero, mul_comm]

theorem two_zpow_eq (a : ℤ) (n : ℕ) : (2 : ℚ) ^ a = 2 ^ (a - n) * 2 ^ n := by
  rw [← zpow_natCast, ← zpow_add₀ two_ne_zero, sub_add_cancel]

/-- A larger power of two is a multiple of a smaller one. -/
theorem exists_mul_zpow {a b : ℤ} (h : a ≤ b) : ∃ k : ℤ, (2 : ℚ) ^ b = k * 2 ^ a := by
  obtain ⟨k, rfl⟩ := Int.le.dest h
  refine ⟨2 ^ k, ?_⟩
  rw [zpow_add₀ two_ne_zero, mul_comm]
  push_cast
  rfl

theorem lastPlace_of_log {x : ℚ} {p : ℤ} (hpos : 0 < x) (hlog : Int.log 2 x = p) :
    lastPlace x = max (p - 52) (-1074) := by
  rw [lastPlace, abs_of_pos hpos, hlog]

/-- Between multiples of a number there is at least that number. -/
theorem add_le_of_lt_of_multiple {x y c : ℚ} {m k : ℤ} (hc : 0 < c) (hx : x = m * c)
    (hy : y = k * c) (h : x < y) : x + c ≤ y := by
  subst hx hy
  have hlt : m < k := by exact_mod_cast lt_of_mul_lt_mul_right h hc.le
  have hle : (m + 1 : ℚ) ≤ k := by exact_mod_cast hlt
  have hmul := mul_le_mul_of_nonneg_right hle hc.le
  linarith

/-- A double has no bits below its last place. -/
theorem lastPlace_le_log {x : ℚ} (hx : nearest x = x) (hpos : 0 < x) :
    lastPlace x ≤ Int.log 2 x := by
  have hstep := add_le_of_lt_of_multiple (two_zpow_pos (lastPlace x)) (m := 0) (by simp)
    hx.symm hpos
  by_contra hno
  have hmono := two_zpow_mono (show Int.log 2 x + 1 ≤ lastPlace x by omega)
  have hlt := lt_zpow_log x
  linarith

/-- Below a power of two the last place is half of that above it. -/
theorem nearest_of_near_zpow {p : ℤ} {y : ℚ} (hp : -1074 ≤ p) (hy : y < 2 ^ p)
    (h : |y - 2 ^ p| < 2 ^ p / 2 ^ 54) : nearest y = 2 ^ p := by
  have hfar : |y - 2 ^ p| < 2 ^ (p - 54) := by
    rw [lt_div_iff₀ (by norm_num)] at h
    exact lt_of_mul_lt_mul_right (h.trans_eq (two_zpow_eq p 54)) (by norm_num)
  have hylow : 2 ^ (p - 1) ≤ y := by
    have hmono := two_zpow_mono (show p - 54 ≤ p - 1 by omega)
    have hhalf := two_zpow_succ (p - 1)
    rw [sub_add_cancel] at hhalf
    have hlow := (abs_lt.mp hfar).1
    linarith
  have hyhigh : y < 2 ^ (p - 1 + 1) := by rwa [sub_add_cancel]
  have hplace : lastPlace y = max (p - 1 - 52) (-1074) :=
    lastPlace_of_log ((two_zpow_pos _).trans_le hylow) (log_eq hylow hyhigh)
  obtain ⟨j, hj⟩ := exists_mul_zpow (show lastPlace y ≤ p by omega)
  refine nearest_of_close hj ?_
  have hmono := two_zpow_mono (show p - 53 ≤ lastPlace y by omega)
  have hsucc := two_zpow_succ (p - 54)
  rw [show p - 54 + 1 = p - 53 by omega] at hsucc
  linarith

/-- What is off by less than one part in `2 ^ 54` is rounded to the double. -/
theorem nearest_of_near {x y : ℚ} (hx : nearest x = x) (hpos : 0 < x)
    (h : |y - x| < x / 2 ^ 54) : nearest y = x := by
  obtain ⟨p, hp⟩ : ∃ p, Int.log 2 x = p := ⟨_, rfl⟩
  have hplace := lastPlace_of_log hpos hp
  have hle : lastPlace x ≤ p := hp ▸ lastPlace_le_log hx hpos
  have hlow : 2 ^ p ≤ x := hp ▸ zpow_le_of_pos hpos
  have hhigh : x < 2 ^ (p + 1) := hp ▸ lt_zpow_log x
  have hunit := two_zpow_pos (lastPlace x)
  obtain ⟨m, hm⟩ : ∃ m : ℤ, x = m * 2 ^ lastPlace x := ⟨_, hx.symm⟩
  have hdist : |y - x| < 2 ^ lastPlace x / 2 := by
    have hfar : x / 2 ^ 54 < 2 ^ (p - 53) := by
      have hsplit := two_zpow_eq (p + 1) 54
      rw [show p + 1 - ((54 : ℕ) : ℤ) = p - 53 by omega] at hsplit
      rwa [div_lt_iff₀ (by norm_num), ← hsplit]
    have hmono := two_zpow_mono (show p - 52 ≤ lastPlace x by omega)
    have hsucc := two_zpow_succ (p - 53)
    rw [show p - 53 + 1 = p - 52 by omega] at hsucc
    linarith
  obtain ⟨hdown, hup⟩ := abs_lt.mp hdist
  by_cases hy : 2 ^ p ≤ y
  · have hyhigh : y < 2 ^ (p + 1) := by
      obtain ⟨k, hk⟩ := exists_mul_zpow (show lastPlace x ≤ p + 1 by omega)
      have hstep := add_le_of_lt_of_multiple hunit hm hk hhigh
      linarith
    have hsame : lastPlace y = lastPlace x := by
      rw [lastPlace_of_log ((two_zpow_pos p).trans_le hy) (log_eq hy hyhigh), hplace]
    refine nearest_of_close (m := m) ?_ ?_
    · rwa [hsame]
    · rwa [hsame]
  · -- Only the power of two itself is so near to a number below it.
    have heq : x = 2 ^ p := by
      by_contra hne
      obtain ⟨j, hj⟩ := exists_mul_zpow hle
      have hstep := add_le_of_lt_of_multiple hunit hj hm (lt_of_le_of_ne hlow (Ne.symm hne))
      linarith
    rw [heq] at h ⊢
    exact nearest_of_near_zpow (by omega) (not_le.mp hy) h

end Doubles
