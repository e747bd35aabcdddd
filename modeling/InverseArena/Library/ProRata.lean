import Mathlib.Tactic.Linarith
import Mathlib.Tactic.LinearCombination
import Mathlib.Tactic.Ring

/-!
# Pro-rata shares with floor division

A pool of some value is divided into shares. A deposit mints shares in
proportion to what it adds, or one for one while there are none, and shares
redeem for their proportion of the value; both quotients are rounded down.

Results:
* `Pool.Change.priceLE`: no operation lowers the value of a share;
  `Pool.PriceLE.worth_le`: nor what any number of shares redeems for.
* `Pool.worth_minted_le_iff`: entering and leaving gains nothing, except in a
  pool that has value and no shares.
* `Pool.loss_le_iff`: exactly when entering and leaving loses at most a given
  amount; `Pool.loss_le_of_price`: it is enough that no share is worth more.
-/

namespace ProRata

/-- The value of a pool and the shares in it, each worth at least one unit. -/
structure Pool where
  value : ℤ
  shares : ℤ
  nonneg : 0 ≤ shares
  covered : shares ≤ value

namespace Pool

theorem empty_valid : (0 : ℤ) ≤ 0 := le_rfl

/-- The pool without value or shares. -/
def empty : Pool := ⟨0, 0, empty_valid, empty_valid⟩

variable (p : Pool)

theorem value_nonneg : 0 ≤ p.value := p.nonneg.trans p.covered

theorem value_pos (h : 0 < p.shares) : 0 < p.value := lt_of_lt_of_le h p.covered

/-- The shares minted for a deposit of `v`. -/
def minted (v : ℤ) : ℤ := if p.shares = 0 then v else v * p.shares / p.value

/-- What `n` shares redeem for. -/
def worth (n : ℤ) : ℤ := n * p.value / p.shares

variable {p} {n v : ℤ}

theorem minted_nonneg (hv : 0 ≤ v) : 0 ≤ p.minted v := by
  unfold minted
  split_ifs
  · exact hv
  · exact Int.ediv_nonneg (mul_nonneg hv p.nonneg) p.value_nonneg

/-- The shares are in proportion to the deposit, rounded down. -/
theorem minted_mul_le (h : 0 < p.shares) : p.minted v * p.value ≤ v * p.shares := by
  unfold minted
  rw [if_neg h.ne']
  exact Int.ediv_mul_le _ (p.value_pos h).ne'

theorem minted_le (hv : 0 ≤ v) : p.minted v ≤ v := by
  by_cases h : p.shares = 0
  · unfold minted
    rw [if_pos h]
  · have hpos : 0 < p.shares := lt_of_le_of_ne p.nonneg (Ne.symm h)
    have hle : p.minted v * p.value ≤ v * p.value :=
      (minted_mul_le hpos).trans (mul_le_mul_of_nonneg_left p.covered hv)
    exact le_of_mul_le_mul_right hle (p.value_pos hpos)

theorem worth_nonneg (hn : 0 ≤ n) : 0 ≤ p.worth n :=
  Int.ediv_nonneg (mul_nonneg hn p.value_nonneg) p.nonneg

/-- What is paid is in proportion to the shares, rounded down. -/
theorem worth_mul_le (h : 0 < p.shares) : p.worth n * p.shares ≤ n * p.value :=
  Int.ediv_mul_le _ h.ne'

/-- Redeeming some of the shares leaves at least a unit for each other one. -/
theorem worth_le (hn : 0 ≤ n) (hle : n ≤ p.shares) :
    p.shares - n ≤ p.value - p.worth n := by
  rcases eq_or_lt_of_le p.nonneg with h | h
  · have hworth : p.worth n = 0 := by
      unfold worth
      rw [← h, Int.ediv_zero]
    have := p.covered
    omega
  · have hrest : (p.shares - n) * p.shares ≤ (p.shares - n) * p.value :=
      mul_le_mul_of_nonneg_left p.covered (by omega)
    have hpaid := p.worth_mul_le (n := n) h
    apply le_of_mul_le_mul_right _ h
    linarith

/-! ## Operations -/

/-- A deposit of `v`. -/
def enter (p : Pool) (v : ℤ) (hv : 0 ≤ v) : Pool where
  value := p.value + v
  shares := p.shares + p.minted v
  nonneg := add_nonneg p.nonneg (minted_nonneg hv)
  covered := add_le_add p.covered (minted_le hv)

/-- The redemption of `n` shares. -/
def leave (p : Pool) (n : ℤ) (hn : 0 ≤ n) (hle : n ≤ p.shares) : Pool where
  value := p.value - p.worth n
  shares := p.shares - n
  nonneg := by omega
  covered := worth_le hn hle

/-- Value `x` added without shares. -/
def grow (p : Pool) (x : ℤ) (hx : 0 ≤ x) : Pool where
  value := p.value + x
  shares := p.shares
  nonneg := p.nonneg
  covered := by have := p.covered; omega

/-! ## The price of a share -/

/-- A share of `q` is worth at least as much as one of `p`. -/
def PriceLE (p q : Pool) : Prop := p.value * q.shares ≤ q.value * p.shares

theorem PriceLE.refl (p : Pool) : PriceLE p p := le_rfl

theorem PriceLE.trans {p q r : Pool} (h : PriceLE p q) (h' : PriceLE q r) (hq : 0 < q.shares) :
    PriceLE p r := by
  unfold PriceLE at h h' ⊢
  have h1 := mul_le_mul_of_nonneg_right h r.nonneg
  have h2 := mul_le_mul_of_nonneg_right h' p.nonneg
  apply le_of_mul_le_mul_right _ hq
  linarith

/-- Where a share is worth more, any number of shares redeems for as much. -/
theorem PriceLE.worth_le {p q : Pool} (h : PriceLE p q) (hp : 0 < p.shares) (hq : 0 < q.shares)
    (hn : 0 ≤ n) : p.worth n ≤ q.worth n := by
  unfold PriceLE at h
  have hpaid := p.worth_mul_le (n := n) hp
  apply (Int.le_ediv_iff_mul_le hq).mpr
  apply le_of_mul_le_mul_right _ hp
  calc p.worth n * q.shares * p.shares = p.worth n * p.shares * q.shares := by ring
    _ ≤ n * p.value * q.shares := mul_le_mul_of_nonneg_right hpaid hq.le
    _ = n * (p.value * q.shares) := by ring
    _ ≤ n * (q.value * p.shares) := mul_le_mul_of_nonneg_left h hn
    _ = n * q.value * p.shares := by ring

theorem priceLE_enter (hv : 0 ≤ v) (h : 0 < p.shares) : PriceLE p (p.enter v hv) := by
  have hmint := p.minted_mul_le (v := v) h
  unfold PriceLE enter
  dsimp only
  linarith

theorem priceLE_leave (hn : 0 ≤ n) (hle : n ≤ p.shares) (h : 0 < p.shares) :
    PriceLE p (p.leave n hn hle) := by
  have hpaid := p.worth_mul_le (n := n) h
  unfold PriceLE leave
  dsimp only
  linarith

theorem priceLE_grow {x : ℤ} (hx : 0 ≤ x) : PriceLE p (p.grow x hx) := by
  have hprod := mul_nonneg hx p.nonneg
  unfold PriceLE grow
  dsimp only
  linarith

/-- One operation on a pool. -/
inductive Change : Pool → Pool → Prop
  | enter {p : Pool} {v : ℤ} (hv : 0 ≤ v) : Change p (p.enter v hv)
  | leave {p : Pool} {n : ℤ} (hn : 0 ≤ n) (hle : n ≤ p.shares) : Change p (p.leave n hn hle)
  | grow {p : Pool} {x : ℤ} (hx : 0 ≤ x) : Change p (p.grow x hx)

/-- No operation lowers the value of a share. -/
theorem Change.priceLE {p q : Pool} (h : Change p q) (hp : 0 < p.shares) : PriceLE p q := by
  cases h with
  | enter hv => exact priceLE_enter hv hp
  | leave hn hle => exact priceLE_leave hn hle hp
  | grow hx => exact priceLE_grow hx

/-! ## Entering and leaving at once -/

section RoundTrip

variable {b : ℤ}

/-- In a pool without shares the depositor takes all there is. -/
theorem worth_minted_of_unshared (hv : 0 < v) (h : p.shares = 0) :
    (p.enter v (Int.le_of_lt hv)).worth (p.minted v) = p.value + v := by
  have hmint : p.minted v = v := if_pos h
  unfold worth enter
  dsimp only
  rw [hmint, h, zero_add]
  exact Int.mul_ediv_cancel_left _ hv.ne'

/-- Entering and leaving at once gains nothing, unless there is value to which
    nobody has a share. -/
theorem worth_minted_le_iff (hv : 0 < v) :
    (p.enter v (Int.le_of_lt hv)).worth (p.minted v) ≤ v ↔ ¬ (p.shares = 0 ∧ 0 < p.value) := by
  by_cases h : p.shares = 0
  · have := p.value_nonneg
    rw [worth_minted_of_unshared hv h]
    simp only [h, true_and]
    omega
  · have hpos : 0 < p.shares := lt_of_le_of_ne p.nonneg (Ne.symm h)
    have hmint := minted_nonneg (p := p) hv.le
    have hle := p.minted_mul_le (v := v) hpos
    simp only [h, false_and, not_false_eq_true, iff_true]
    show p.minted v * (p.value + v) / (p.shares + p.minted v) ≤ v
    apply Int.ediv_le_of_le_mul (by omega)
    linarith

/-- A deposit is the minted shares' part of the value and the remainder. -/
theorem minted_add_emod (h : 0 < p.shares) :
    p.minted v * p.value + v * p.shares % p.value = v * p.shares := by
  unfold minted
  rw [if_neg h.ne', mul_comm (v * p.shares / p.value)]
  exact Int.mul_ediv_add_emod _ _

/-- What entering and leaving loses is the remainder of the share computation,
    spread over all shares. -/
theorem loss_le_iff_remainder (hv : 0 < v) (h : 0 < p.shares) :
    v - (p.enter v (Int.le_of_lt hv)).worth (p.minted v) ≤ b ↔
      v * p.shares % p.value ≤ b * (p.shares + p.minted v) := by
  have hmint := minted_nonneg (p := p) hv.le
  have hdiv := p.minted_add_emod (v := v) h
  have hworth : v - (p.enter v (Int.le_of_lt hv)).worth (p.minted v) ≤ b ↔
      (v - b) * (p.shares + p.minted v) ≤ p.minted v * (p.value + v) := by
    rw [sub_le_comm]
    refine Int.le_ediv_iff_mul_le ?_
    show 0 < p.shares + p.minted v
    omega
  rw [hworth]
  constructor
  · intro hle
    linarith
  · intro hle
    linarith

/-- Entering and leaving loses at most `b` iff the remainder of the share
    computation is small enough. -/
theorem loss_le_iff (hv : 0 < v) (hb : 0 ≤ b) :
    v - (p.enter v (Int.le_of_lt hv)).worth (p.minted v) ≤ b ↔
      v * p.shares % p.value * (p.value + b) ≤ b * p.shares * (p.value + v) := by
  by_cases h : p.shares = 0
  · have := p.value_nonneg
    rw [worth_minted_of_unshared hv h, h]
    simp only [mul_zero, Int.zero_emod, zero_mul, le_refl, iff_true]
    omega
  · have hpos : 0 < p.shares := lt_of_le_of_ne p.nonneg (Ne.symm h)
    have hval := p.value_pos hpos
    have hdiv := p.minted_add_emod (v := v) hpos
    rw [loss_le_iff_remainder hv hpos]
    generalize v * p.shares % p.value = ρ at hdiv ⊢
    generalize p.minted v = s at hdiv ⊢
    -- the two differences are the same up to the factor `p.value`
    have hscale : b * p.shares * (p.value + v) - ρ * (p.value + b) =
        (b * (p.shares + s) - ρ) * p.value := by
      linear_combination -b * hdiv
    constructor
    · intro hle
      have := mul_nonneg (sub_nonneg.mpr hle) hval.le
      linarith
    · intro hle
      have hprod : 0 ≤ (b * (p.shares + s) - ρ) * p.value := by linarith
      exact sub_nonneg.mp (nonneg_of_mul_nonneg_left hprod hval)

/-- No more than `b` is lost where a share is worth at most `b`. -/
theorem loss_le_of_price (hv : 0 < v) (hb : 0 ≤ b) (hprice : p.value ≤ b * p.shares) :
    v - (p.enter v (Int.le_of_lt hv)).worth (p.minted v) ≤ b := by
  rcases eq_or_lt_of_le p.nonneg with h | h
  · have := p.value_nonneg
    rw [worth_minted_of_unshared hv h.symm]
    omega
  · have hmod := Int.emod_lt_of_pos (v * p.shares) (p.value_pos h)
    have hmint := mul_nonneg hb (minted_nonneg (p := p) hv.le)
    rw [loss_le_iff_remainder hv h]
    linarith

end RoundTrip

end Pool

end ProRata
