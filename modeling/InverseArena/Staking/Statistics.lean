import InverseArena.Staking.Exactness

/-!
# What the statistics of the stakers mean

`position.amount` grows by deposits and shrinks by redemptions, which include
rewards (`contract/staking/src/lib.rs`, lines 232-237 and 288-297), and
`get_staker_stats` divides it by the value of the pool.

Results:
* `AmountsInv.step`: as long as nobody redeems more than the amount, the amounts
  are parts of the pool.
* `statistics_iff`: without overflow the amounts and the basis points are those
  of parts of the pool exactly as long as nobody redeems more than the amount.
* `not_statistics`: after a reward a staker has a negative amount.
-/

namespace InverseArena.Staking

open MachineInt Host KeyedMap Transition ProRata

/-- The amount of `staker`. -/
def amountOf (s : StakingStorage) (staker : Address) : ℤ := (s.getPosition staker).amount

/-- The basis points of `staker`. -/
def bpsOf (s : StakingStorage) (staker : Address) : ℤ := (getStakerStats s staker).stakeShareBps

/-- The amounts are parts of the pool, and the basis points parts of 10000. -/
structure Meaningful (h : StakingState) : Prop where
  nonneg : ∀ staker, 0 ≤ amountOf h.storage staker
  sum_le : ∑ᶠ staker, amountOf h.storage staker ≤ h.storage.loadTotalStaked
  bps : ∀ staker, 0 ≤ bpsOf h.storage staker ∧ bpsOf h.storage staker ≤ 10000
  bps_sum_le : ∑ᶠ staker, bpsOf h.storage staker ≤ 10000

/-- No product overflows, that of the statistics of the staker included. -/
def StatisticsFit (h : StakingState) : StakingAction → Prop
  | .stake auths staker amount => NoOverflow h (.stake auths staker amount) ∧
      (amountOf h.storage staker + amount) * 10000 ≤ i128Max
  | a => NoOverflow h a

/-- Nobody redeems shares for more than the amount. -/
def WithinAmount (h : StakingState) : StakingAction → Prop
  | .unstake _ staker shares =>
    shares * h.storage.loadTotalStaked / h.storage.loadTotalShares ≤ amountOf h.storage staker
  | _ => True

/-! ## What a step does to the amounts -/

/-- The amounts after a step. -/
inductive AmountEffect (h h' : StakingState) : StakingAction → Prop
  | stake {auths : List Address} {staker : Address} {amount : ℤ} : 0 < amount →
      amountOf h'.storage = Function.update (amountOf h.storage) staker
        (wrapI128 (amountOf h.storage staker + amount)) →
      h'.storage.loadTotalStaked = h.storage.loadTotalStaked + amount →
      AmountEffect h h' (.stake auths staker amount)
  | unstake {auths : List Address} {staker : Address} {shares tokens : ℤ} : 0 ≤ tokens →
      tokens = shares * h.storage.loadTotalStaked / h.storage.loadTotalShares →
      tokens ≤ h.storage.loadTotalStaked →
      amountOf h'.storage = Function.update (amountOf h.storage) staker
        (wrapI128 (amountOf h.storage staker - tokens)) →
      h'.storage.loadTotalStaked = h.storage.loadTotalStaked - tokens →
      AmountEffect h h' (.unstake auths staker shares)
  | other {a : StakingAction} : (∀ auths staker amount, a ≠ .stake auths staker amount) →
      (∀ auths staker shares, a ≠ .unstake auths staker shares) →
      amountOf h'.storage = amountOf h.storage →
      h.storage.loadTotalStaked ≤ h'.storage.loadTotalStaked → AmountEffect h h' a

theorem amountOf_savePosition (s : StakingStorage) (staker : Address) (pos : StakePosition) :
    amountOf (s.savePosition staker pos) = Function.update (amountOf s) staker pos.amount := by
  funext a
  unfold amountOf
  rw [StakingStorage.getPosition_savePosition]
  by_cases h : a = staker
  · subst h; simp
  · simp [h]

section Steps

variable {here staker : Address} {h h' : StakingState} {a : StakingAction}

theorem StakingStep.amountEffect (hs : StakingStep here h a h') (hi : PoolInv here h)
    (hfit : NoOverflow h a) : AmountEffect h h' a := by
  obtain ⟨p, hrep⟩ := hi.pool
  cases hs with
  | stake hhere hexec =>
    obtain ⟨hpos, rfl, hrep', -⟩ := stake_spec hi hrep hhere hfit hexec
    refine .stake hpos ?_ ?_
    · obtain ⟨-, -, -, -, -, -, token, tokens, -, -, rfl⟩ := stake_eq_ok.mp hexec
      exact amountOf_savePosition _ _ _
    · rw [hrep'.value, hrep.value]
      rfl
  | unstake hhere hexec =>
    obtain ⟨hpos, hle, rfl, hrep', -⟩ := unstake_spec hi hrep hhere hfit hexec
    refine .unstake (Pool.worth_nonneg (p := p) hpos.le) ?_ ?_ ?_ ?_
    · rw [hrep.value, hrep.shares]
      rfl
    · have hrest := Pool.worth_le hpos.le hle
      rw [hrep.value]
      omega
    · obtain ⟨-, -, -, -, -, -, -, token, tokens, -, -, rfl⟩ := unstake_eq_ok.mp hexec
      exact amountOf_savePosition _ _ _
    · rw [hrep'.value, hrep.value]
      rfl
  | distributeRewards hhere hexec =>
    obtain ⟨hpos, hrep', -⟩ := distributeRewards_spec hi hrep hhere hexec
    refine .other (by simp) (by simp) ?_ ?_
    · obtain ⟨-, -, -, -, token, tokens, -, -, rfl⟩ := distributeRewards_eq_ok.mp hexec
      rfl
    · rw [hrep'.value, hrep.value]
      show p.value ≤ p.value + _
      omega
  | initializeStaking hexec =>
    simp only [Staking.initializeStaking, Fallible.bind_eq_ok, requireAuth_eq_ok, check_eq_ok,
      Fallible.pure_eq_ok, exists_const] at hexec
    obtain ⟨-, hnone, rfl⟩ := hexec
    refine .other (by simp) (by simp) rfl ?_
    rw [hi.blank hnone]
    exact le_rfl
  | pause hexec | unpause hexec =>
    simp only [Staking.pause, Staking.unpause, StakingStorage.requireAdmin, Fallible.bind_eq_ok,
      okOr_eq_ok, requireAuth_eq_ok, Fallible.pure_eq_ok, exists_const] at hexec
    obtain ⟨-, rfl⟩ := hexec
    exact .other (by simp) (by simp) rfl le_rfl
  | moveTokens => exact .other (by simp) (by simp) rfl le_rfl

/-! ## The invariant -/

/-- The amounts are parts of the pool and small enough for the statistics. -/
structure AmountsInv (h : StakingState) : Prop where
  nonneg : ∀ staker, 0 ≤ amountOf h.storage staker
  finite : (Function.support (amountOf h.storage)).Finite
  sum_le : ∑ᶠ staker, amountOf h.storage staker ≤ h.storage.loadTotalStaked
  fits : ∀ staker, amountOf h.storage staker * 10000 ≤ i128Max

theorem AmountsInv.le_total (ha : AmountsInv h) (staker : Address) :
    amountOf h.storage staker ≤ h.storage.loadTotalStaked :=
  (le_finsum ha.finite ha.nonneg staker).trans ha.sum_le

theorem amountsInv_fresh (tokens : Tokens) : AmountsInv (.fresh tokens) where
  nonneg := fun _ => le_rfl
  finite := by
    have hzero : amountOf (StakingState.fresh tokens).storage = fun _ => 0 := rfl
    rw [hzero, Function.support_fun_zero]
    exact Set.finite_empty
  sum_le := le_of_eq finsum_zero
  fits := fun _ => by
    show (0 : ℤ) * 10000 ≤ i128Max
    unfold i128Max
    norm_num

/-- One amount changes by as much as the value of the pool. -/
theorem AmountsInv.update (ha : AmountsInv h) {x y : ℤ} (hy : y = amountOf h.storage staker + x)
    (hupd : amountOf h'.storage = Function.update (amountOf h.storage) staker y)
    (htotal : h'.storage.loadTotalStaked = h.storage.loadTotalStaked + x) (h0 : 0 ≤ y)
    (hfit : y * 10000 ≤ i128Max) : AmountsInv h' where
  nonneg := fun u => by
    rw [hupd]
    by_cases hu : u = staker
    · subst hu; rw [Function.update_self]; exact h0
    · rw [Function.update_of_ne hu]; exact ha.nonneg u
  finite := by rw [hupd]; exact support_update_finite ha.finite _ _
  sum_le := by
    have hsum := ha.sum_le
    rw [hupd, finsum_update ha.finite, htotal]
    omega
  fits := fun u => by
    rw [hupd]
    by_cases hu : u = staker
    · subst hu; rw [Function.update_self]; exact hfit
    · rw [Function.update_of_ne hu]; exact ha.fits u

/-- The amount after a redemption, which may be negative. -/
theorem AmountsInv.wrap_sub (ha : AmountsInv h) (hmax : h.storage.loadTotalStaked ≤ i128Max)
    {tokens : ℤ} (h0 : 0 ≤ tokens) (hle : tokens ≤ h.storage.loadTotalStaked) :
    wrapI128 (amountOf h.storage staker - tokens) = amountOf h.storage staker - tokens := by
  have hnn := ha.nonneg staker
  have hsum := ha.le_total staker
  exact wrapI128_of_mem (by unfold i128Min i128Max at *; omega) (by omega)

theorem StatisticsFit.noOverflow (hfit : StatisticsFit h a) : NoOverflow h a := by
  cases a with
  | stake => exact hfit.1
  | _ => exact hfit

theorem AmountsInv.step (ha : AmountsInv h) (hi : PoolInv here h) (hs : StakingStep here h a h')
    (hfit : StatisticsFit h a) (hwithin : WithinAmount h a) : AmountsInv h' := by
  have hmax := hi.totalStaked_le
  cases hs.amountEffect hi hfit.noOverflow with
  | @stake auths staker amount hpos hupd htotal =>
    have hnn := ha.nonneg staker
    have hprod : (amountOf h.storage staker + amount) * 10000 ≤ i128Max := hfit.2
    rw [wrapI128_of_mem (by unfold i128Min; omega) (by unfold i128Max at *; omega)] at hupd
    exact ha.update rfl hupd htotal (by omega) hprod
  | @unstake auths staker shares tokens h0 htokens hle hupd htotal =>
    have hbound : tokens ≤ amountOf h.storage staker := htokens.le.trans hwithin
    have hold := ha.fits staker
    rw [ha.wrap_sub hmax h0 hle, sub_eq_add_neg] at hupd
    rw [sub_eq_add_neg] at htotal
    exact ha.update rfl hupd htotal (by omega) (by omega)
  | other _ _ hsame htotal =>
    exact {
      nonneg := by rw [hsame]; exact ha.nonneg
      finite := by rw [hsame]; exact ha.finite
      sum_le := by rw [hsame]; exact ha.sum_le.trans htotal
      fits := by rw [hsame]; exact ha.fits }

/-! ## What the statistics say -/

theorem AmountsInv.bpsOf_eq (ha : AmountsInv h) (staker : Address) :
    bpsOf h.storage staker =
      if 0 < h.storage.loadTotalStaked then
        amountOf h.storage staker * 10000 / h.storage.loadTotalStaked
      else 0 := by
  have h0 : 0 ≤ amountOf h.storage staker * 10000 := mul_nonneg (ha.nonneg staker) (by norm_num)
  change (if 0 < h.storage.loadTotalStaked then
    (wrapI128 (amountOf h.storage staker * 10000)).tdiv h.storage.loadTotalStaked else 0) = _
  rw [wrapI128_of_mem (by unfold i128Min; omega) (ha.fits staker), Int.tdiv_eq_ediv_of_nonneg h0]

theorem AmountsInv.bps_mul_le (ha : AmountsInv h) (hpos : 0 < h.storage.loadTotalStaked)
    (staker : Address) : bpsOf h.storage staker * h.storage.loadTotalStaked ≤
      amountOf h.storage staker * 10000 := by
  rw [ha.bpsOf_eq, if_pos hpos]
  exact Int.ediv_mul_le _ hpos.ne'

theorem AmountsInv.bps_sum_le (ha : AmountsInv h) : ∑ᶠ staker, bpsOf h.storage staker ≤ 10000 := by
  by_cases hpos : 0 < h.storage.loadTotalStaked
  · have hsub : Function.support (bpsOf h.storage) ⊆ ↑ha.finite.toFinset := by
      intro staker hne
      rw [Set.Finite.coe_toFinset, Function.mem_support]
      intro hzero
      rw [Function.mem_support, ha.bpsOf_eq, hzero] at hne
      simp at hne
    have hsub' : Function.support (amountOf h.storage) ⊆ ↑ha.finite.toFinset := by simp
    have hsum := ha.sum_le
    rw [finsum_eq_sum_of_support_subset _ hsub'] at hsum
    rw [finsum_eq_sum_of_support_subset _ hsub]
    refine le_of_mul_le_mul_right ?_ hpos
    calc (∑ staker ∈ ha.finite.toFinset, bpsOf h.storage staker) * h.storage.loadTotalStaked
        = ∑ staker ∈ ha.finite.toFinset, bpsOf h.storage staker * h.storage.loadTotalStaked :=
          Finset.sum_mul _ _ _
      _ ≤ ∑ staker ∈ ha.finite.toFinset, amountOf h.storage staker * 10000 :=
          Finset.sum_le_sum fun staker _ => ha.bps_mul_le hpos staker
      _ = (∑ staker ∈ ha.finite.toFinset, amountOf h.storage staker) * 10000 :=
          (Finset.sum_mul _ _ _).symm
      _ ≤ 10000 * h.storage.loadTotalStaked := by omega
  · have hzero : ∀ staker, bpsOf h.storage staker = 0 := fun staker => by
      rw [ha.bpsOf_eq, if_neg hpos]
    rw [finsum_congr hzero, finsum_zero]
    norm_num

theorem AmountsInv.meaningful (ha : AmountsInv h) : Meaningful h where
  nonneg := ha.nonneg
  sum_le := ha.sum_le
  bps staker := by
    have h0 := ha.nonneg staker
    have hle := ha.le_total staker
    rw [ha.bpsOf_eq]
    split_ifs with hpos
    · refine ⟨Int.ediv_nonneg (by omega) hpos.le, Int.ediv_le_of_le_mul hpos ?_⟩
      omega
    · norm_num
  bps_sum_le := ha.bps_sum_le

/-! ## Main results -/

/-- A step keeps the statistics meaningful exactly if it redeems no more than the
    amount. -/
theorem AmountsInv.meaningful_iff (ha : AmountsInv h) (hi : PoolInv here h)
    (hs : StakingStep here h a h') (hfit : StatisticsFit h a) :
    Meaningful h' ↔ WithinAmount h a := by
  refine ⟨fun hm => ?_, fun hwithin => (ha.step hi hs hfit hwithin).meaningful⟩
  cases a with
  | unstake auths staker shares =>
    cases hs.amountEffect hi hfit with
    | unstake h0 htokens hle hupd =>
      have hnn := hm.nonneg staker
      rw [hupd, Function.update_self, ha.wrap_sub hi.totalStaked_le h0 hle] at hnn
      show shares * h.storage.loadTotalStaked / h.storage.loadTotalShares ≤ _
      omega
    | other _ hne => exact absurd rfl (hne _ _ _)
  | _ => trivial

/-- In the runs without overflow the statistics are meaningful in every state
    exactly if nobody redeems shares for more than the recorded amount. -/
theorem statistics_iff {tokens : Tokens} {tr : List (StakingState × StakingAction)}
    (hrun : Run (StakingStep here) (.fresh tokens) tr h)
    (hfits : ∀ e ∈ tr, StatisticsFit e.1 e.2) :
    AlongRun (fun _ h => Meaningful h) tr h ↔ EachStep (fun _ h a => WithinAmount h a) tr := by
  have hinv : ∀ {tr t}, Run (fun h a h' => StakingStep here h a h' ∧ StatisticsFit h a)
      (.fresh tokens) tr t → EachStep (fun _ h a => WithinAmount h a) tr →
      PoolInv here t ∧ AmountsInv t := by
    intro tr t hr hwithin
    induction hr with
    | nil => exact ⟨poolInv_fresh here tokens, amountsInv_fresh tokens⟩
    | snoc _ hs ih =>
      obtain ⟨hi, ha⟩ := ih hwithin.2
      obtain ⟨p, hrep⟩ := hi.pool
      exact ⟨(hs.1.refines hi hs.2.noOverflow hrep).1, ha.step hi hs.1 hs.2 hwithin.1⟩
  refine (hrun.restrict hfits).alongRun_iff_of_each (amountsInv_fresh tokens).meaningful ?_
  intro tr t a u hr hwithin hs
  obtain ⟨hi, ha⟩ := hinv hr hwithin
  exact ha.meaningful_iff hi hs.1 hs.2

end Steps

instance (h : StakingState) : (a : StakingAction) → Decidable (StatisticsFit h a)
  | .stake _ _ _ => inferInstanceAs (Decidable (_ ∧ _))
  | .unstake _ _ _ => inferInstanceAs (Decidable (_ ≤ _))
  | .initializeStaking _ _ _ | .pause _ | .unpause _ | .distributeRewards _ _ _
  | .moveTokens _ => isTrue trivial

instance (h : StakingState) : (a : StakingAction) → Decidable (WithinAmount h a)
  | .unstake _ _ _ => inferInstanceAs (Decidable (_ ≤ _))
  | .initializeStaking _ _ _ | .pause _ | .unpause _ | .stake _ _ _ | .distributeRewards _ _ _
  | .moveTokens _ => isTrue trivial

/-- Two stakers, a reward, and a redemption within the amount. -/
theorem statistics_redemption : ∃ tr h, Run (StakingStep ⟨0⟩) (.fresh sampleTokens) tr h ∧
    amountOf h.storage ⟨11⟩ = 8000000 ∧ AlongRun (fun _ h => Meaningful h) tr h := by
  obtain ⟨tr, h, hrun, -, hfits, hamount, hwithin⟩ : ∃ tr h,
      Run (StakingStep ⟨0⟩) (.fresh sampleTokens) tr h ∧ (∀ e ∈ tr, NoOverflow e.1 e.2) ∧
        (∀ e ∈ tr, StatisticsFit e.1 e.2) ∧ amountOf h.storage ⟨11⟩ = 8000000 ∧
        EachStep (fun _ h a => WithinAmount h a) tr :=
    exists_stakingRun [.initializeStaking [⟨9⟩] ⟨9⟩ ⟨1⟩, .stake [⟨11⟩] ⟨11⟩ 10000000,
      .stake [⟨12⟩] ⟨12⟩ 10000000, .distributeRewards [⟨12⟩] ⟨12⟩ 20000000,
      .unstake [⟨11⟩] ⟨11⟩ 1000000] (by decide +kernel)
  exact ⟨tr, h, hrun, hamount, (statistics_iff hrun hfits).mpr hwithin⟩

/-- After a reward the only staker redeems three quarters of the shares for more
    than was deposited: the amount is negative, and so are the basis points. -/
theorem not_statistics : ∃ tr h, Run (StakingStep ⟨0⟩) (.fresh sampleTokens) tr h ∧
    (∀ e ∈ tr, NoOverflow e.1 e.2) ∧ amountOf h.storage ⟨11⟩ = -5000000 ∧
      bpsOf h.storage ⟨11⟩ = -10000 :=
  exists_stakingRun [.initializeStaking [⟨9⟩] ⟨9⟩ ⟨1⟩, .stake [⟨11⟩] ⟨11⟩ 10000000,
    .distributeRewards [⟨12⟩] ⟨12⟩ 10000000, .unstake [⟨11⟩] ⟨11⟩ 7500000] (by decide +kernel)

end InverseArena.Staking
