import InverseArena.Staking.Replay
import Mathlib.Data.Rat.Cast.Order
import Mathlib.Tactic.FieldSimp

/-!
# Entering the staking pool and leaving at once

An accepted `stake` immediately followed by an `unstake` of the minted shares
(`contract/staking/src/lib.rs`, lines 194-296). The comment on
`MIN_INITIAL_STAKE` (lines 23-51) argues that a seeded pool has too many shares
for the price of one to be driven up; but `unstake` may leave a single share
behind, and `distribute_rewards` may pay into a pool without shares.

Results:
* `round_trip_loss_iff`: exactly when the staker loses at most
  `1 + 2 * (1 + D / MIN_INITIAL_STAKE)`, where `D` is what was ever distributed.
* `round_trip_no_gain_iff`: the staker gains nothing unless the pool had value
  and no shares.
* `single_share_inflates`, `orphaned_rewards_captured`: two runs in which these
  conditions fail.
-/

namespace InverseArena.Staking

open MachineInt Transition ProRata

/-- The rewards distributed in the steps `tr`. -/
def distributed (tr : List (StakingState × StakingAction)) : ℤ :=
  (tr.map fun e => match e.2 with
    | .distributeRewards _ _ amount => amount
    | _ => 0).sum

/-- `1 + 2 * (1 + D / MIN_INITIAL_STAKE)` rounded down, where `D` is what was
    distributed in the steps `tr`. -/
def lossBound (tr : List (StakingState × StakingAction)) : ℤ :=
  3 + 2 * distributed tr / minInitialStake

section RoundTrip

variable {here staker : Address} {auths auths' : List Address} {amount shares : ℤ}
  {h h' : StakingState} {a : StakingAction} {tokens : Tokens}
  {tr : List (StakingState × StakingAction)}

theorem distributed_nonneg (hrun : Run (StakingStep here) (.fresh tokens) tr h) :
    0 ≤ distributed tr := by
  refine hrun.history (I := fun tr _ => 0 ≤ distributed tr) le_rfl
    fun tr t a u _ ih hs => ?_
  unfold distributed at ih ⊢
  rw [List.map_cons, List.sum_cons]
  cases hs with
  | distributeRewards hhere hexec =>
    have hpos := (distributeRewards_eq_ok.mp hexec).2.2.2.1
    dsimp only
    omega
  | _ => dsimp only; omega

/-- Whoever has staked can redeem the minted shares at once, for what they are
    worth in the pool after the deposit. -/
theorem exists_round_trip (hi : PoolInv here h) (hhere : here ∉ auths)
    (hfit : NoOverflow h (.stake auths staker amount))
    (hstake : stake here auths staker amount h = .ok (shares, h'))
    (hfit' : NoOverflow h' (.unstake auths' staker shares)) (hauth : staker ∈ auths') :
    ∃ p, Represents h.storage p ∧ ∃ hpos : 0 < amount, ∃ h'',
      unstake here auths' staker shares h' =
        .ok ((p.enter amount (Int.le_of_lt hpos)).worth (p.minted amount), h'') := by
  obtain ⟨p, hrep⟩ := hi.pool
  obtain ⟨-, hpaused, hinit, -, -, hne, -⟩ := stake_eq_ok.mp hstake
  obtain ⟨hpos, rfl, hrep', hset⟩ := stake_spec hi hrep hhere hfit hstake
  have hmint := Pool.minted_nonneg (p := p) hpos.le
  have hown := hi.nonneg staker
  have hi' : PoolInv here h' := hset.poolInv hi (add_nonneg hown hmint) hrep hrep' rfl rfl
  have hpaused' : h'.storage.isPaused = false := by
    unfold StakingStorage.isPaused
    rw [hset.paused]
    exact hpaused
  have hinit' : h'.storage.admin.isSome = true := by rw [hset.admin]; exact hinit
  have hown' : p.minted amount ≤ sharesOf h'.storage staker := by
    rw [hset.position, Function.update_self]
    omega
  refine ⟨p, hrep, hpos, ?_⟩
  refine exists_unstake hi' hrep' hauth hpaused' hinit' (by omega) hown' ?_
  rw [← hrep'.value]
  exact hfit'

theorem lossBound_nonneg (hrun : Run (StakingStep here) (.fresh tokens) tr h) :
    0 ≤ lossBound tr := by
  have hd := distributed_nonneg hrun
  have hdiv : 0 ≤ 2 * distributed tr / minInitialStake :=
    Int.ediv_nonneg (by omega) (by decide)
  unfold lossBound
  omega

/-- A whole number is within the bound iff it is within the rounded one. -/
theorem le_lossBound_iff {x : ℤ} :
    (x : ℚ) ≤ 1 + 2 * (1 + distributed tr / minInitialStake) ↔ x ≤ lossBound tr := by
  unfold lossBound
  generalize distributed tr = d
  have hmin : (0 : ℤ) < minInitialStake := by decide
  have hminq : (0 : ℚ) < minInitialStake := by exact_mod_cast hmin
  have hcross : (x : ℚ) ≤ 1 + 2 * (1 + d / minInitialStake) ↔
      (x - 3) * minInitialStake ≤ 2 * d := by
    have hsplit : (1 : ℚ) + 2 * (1 + d / minInitialStake) = 3 + 2 * d / minInitialStake := by
      ring
    rw [hsplit, ← sub_le_iff_le_add', le_div_iff₀ hminq]
    exact_mod_cast Iff.rfl
  rw [hcross, ← Int.le_ediv_iff_mul_le hmin]
  omega

end RoundTrip

/-- In every state reached by a run without overflow, an accepted `stake` of
    `amount` can be undone by unstaking the minted shares, and then loses at
    most `1 + 2 * (1 + D / MIN_INITIAL_STAKE)`, where `D` is the total of the
    rewards distributed in the run, iff the remainder `amount * S mod T` is at
    most `b * S * (T + amount) / (T + b)`, where `T` and `S` are the totals
    before the `stake` and `b` is the bound rounded down. It is enough that a
    share is worth at most `b`. -/
theorem round_trip_loss_iff {here staker : Address} {auths auths' : List Address}
    {amount shares : ℤ} {h h' : StakingState} {tokens : Tokens}
    {tr : List (StakingState × StakingAction)}
    (hrun : Run (StakingStep here) (.fresh tokens) tr h)
    (hfits : ∀ e ∈ tr, NoOverflow e.1 e.2) (hhere : here ∉ auths)
    (hfit : NoOverflow h (.stake auths staker amount))
    (hstake : stake here auths staker amount h = .ok (shares, h'))
    (hfit' : NoOverflow h' (.unstake auths' staker shares)) (hauth : staker ∈ auths') :
    ∃ returned h'', unstake here auths' staker shares h' = .ok (returned, h'') ∧
      (((amount - returned : ℤ) : ℚ) ≤ 1 + 2 * (1 + distributed tr / minInitialStake) ↔
        amount * h.storage.loadTotalShares % h.storage.loadTotalStaked *
            (h.storage.loadTotalStaked + lossBound tr) ≤
          lossBound tr * h.storage.loadTotalShares * (h.storage.loadTotalStaked + amount)) ∧
      (h.storage.loadTotalStaked ≤ lossBound tr * h.storage.loadTotalShares →
        ((amount - returned : ℤ) : ℚ) ≤ 1 + 2 * (1 + distributed tr / minInitialStake)) := by
  obtain ⟨p, hrep, hpos, h'', hunstake⟩ :=
    exists_round_trip (poolInv_of_run hrun hfits) hhere hfit hstake hfit' hauth
  refine ⟨_, h'', hunstake, ?_⟩
  have hb := lossBound_nonneg hrun
  rw [le_lossBound_iff, hrep.value, hrep.shares]
  exact ⟨Pool.loss_le_iff hpos hb, Pool.loss_le_of_price hpos hb⟩

/-- Staker 12 stakes at a price of 1.3 units and loses one unit. -/
theorem round_trip_loss_iff_game : ∃ tr h h' shares returned h'',
    Run (StakingStep ⟨0⟩) (.fresh sampleTokens) tr h ∧
      stake ⟨0⟩ [⟨12⟩] ⟨12⟩ 10000000 h = .ok (shares, h') ∧
      unstake ⟨0⟩ [⟨12⟩] ⟨12⟩ shares h' = .ok (returned, h'') ∧
      ((10000000 - returned : ℤ) : ℚ) ≤ 1 + 2 * (1 + distributed tr / minInitialStake) := by
  obtain ⟨tr, h, hrun, hfits, hfit, ⟨shares, h'⟩, hstake, hfit', hprice⟩ : ∃ tr h,
      Run (StakingStep ⟨0⟩) (.fresh sampleTokens) tr h ∧ (∀ e ∈ tr, NoOverflow e.1 e.2) ∧
        NoOverflow h (.stake [⟨12⟩] ⟨12⟩ 10000000) ∧
        ∃ r ∈ (stake ⟨0⟩ [⟨12⟩] ⟨12⟩ 10000000 h).toOption,
          NoOverflow r.2 (.unstake [⟨12⟩] ⟨12⟩ r.1) ∧
            h.storage.loadTotalStaked ≤ lossBound tr * h.storage.loadTotalShares :=
    exists_stakingRun [.initializeStaking [⟨10⟩] ⟨10⟩ ⟨1⟩, .stake [⟨11⟩] ⟨11⟩ 10000000,
      .distributeRewards [⟨12⟩] ⟨12⟩ 3000000] (by decide +kernel)
  replace hstake := Fallible.toOption_eq_some.mp hstake
  obtain ⟨returned, h'', hunstake, -, hbound⟩ := round_trip_loss_iff hrun hfits (by decide) hfit
    hstake hfit' (by decide)
  exact ⟨tr, h, h', shares, returned, h'', hrun, hstake, hunstake, hbound hprice⟩

/-- An attacker seeds the pool, unstakes all but one share and pays 10000000
    units of rewards; whoever then stakes 20000001 loses 5000000 of them, where
    the bound is 5. -/
theorem single_share_inflates : ∃ tr h h' shares returned h'',
    Run (StakingStep ⟨0⟩) (.fresh sampleTokens) tr h ∧ (∀ e ∈ tr, NoOverflow e.1 e.2) ∧
      NoOverflow h (.stake [⟨12⟩] ⟨12⟩ 20000001) ∧
      stake ⟨0⟩ [⟨12⟩] ⟨12⟩ 20000001 h = .ok (shares, h') ∧
      NoOverflow h' (.unstake [⟨12⟩] ⟨12⟩ shares) ∧
      unstake ⟨0⟩ [⟨12⟩] ⟨12⟩ shares h' = .ok (returned, h'') ∧
      distributed tr = 10000000 ∧ returned = 15000001 ∧
      ¬ ((20000001 - returned : ℤ) : ℚ) ≤ 1 + 2 * (1 + distributed tr / minInitialStake) := by
  obtain ⟨tr, h, hrun, hfits, hfit, ⟨shares, h'⟩, hstake, hfit', ⟨returned, h''⟩, hunstake, hd,
      hreturned⟩ : ∃ tr h,
      Run (StakingStep ⟨0⟩) (.fresh sampleTokens) tr h ∧ (∀ e ∈ tr, NoOverflow e.1 e.2) ∧
        NoOverflow h (.stake [⟨12⟩] ⟨12⟩ 20000001) ∧
        ∃ r ∈ (stake ⟨0⟩ [⟨12⟩] ⟨12⟩ 20000001 h).toOption,
          NoOverflow r.2 (.unstake [⟨12⟩] ⟨12⟩ r.1) ∧
            ∃ u ∈ (unstake ⟨0⟩ [⟨12⟩] ⟨12⟩ r.1 r.2).toOption,
              distributed tr = 10000000 ∧ u.1 = 15000001 :=
    exists_stakingRun [.initializeStaking [⟨10⟩] ⟨10⟩ ⟨1⟩, .stake [⟨11⟩] ⟨11⟩ 10000000,
      .unstake [⟨11⟩] ⟨11⟩ 9999999, .distributeRewards [⟨11⟩] ⟨11⟩ 10000000] (by decide +kernel)
  replace hreturned : returned = 15000001 := hreturned
  refine ⟨tr, h, h', shares, returned, h'', hrun, hfits, hfit,
    Fallible.toOption_eq_some.mp hstake, hfit', Fallible.toOption_eq_some.mp hunstake, hd,
    hreturned, ?_⟩
  rw [le_lossBound_iff, hreturned]
  unfold lossBound
  rw [hd]
  decide

/-- In every state reached by a run without overflow, an accepted `stake` can
    be undone by unstaking the minted shares, and then returns at most what was
    staked iff it is not the case that the pool had value and no shares. -/
theorem round_trip_no_gain_iff {here staker : Address} {auths auths' : List Address}
    {amount shares : ℤ} {h h' : StakingState} {tokens : Tokens}
    {tr : List (StakingState × StakingAction)}
    (hrun : Run (StakingStep here) (.fresh tokens) tr h)
    (hfits : ∀ e ∈ tr, NoOverflow e.1 e.2) (hhere : here ∉ auths)
    (hfit : NoOverflow h (.stake auths staker amount))
    (hstake : stake here auths staker amount h = .ok (shares, h'))
    (hfit' : NoOverflow h' (.unstake auths' staker shares)) (hauth : staker ∈ auths') :
    ∃ returned h'', unstake here auths' staker shares h' = .ok (returned, h'') ∧
      (returned ≤ amount ↔
        ¬ (h.storage.loadTotalShares = 0 ∧ 0 < h.storage.loadTotalStaked)) := by
  obtain ⟨p, hrep, hpos, h'', hunstake⟩ :=
    exists_round_trip (poolInv_of_run hrun hfits) hhere hfit hstake hfit' hauth
  refine ⟨_, h'', hunstake, ?_⟩
  rw [hrep.value, hrep.shares]
  exact Pool.worth_minted_le_iff hpos

/-- Staker 12, without a position, stakes and leaves without gain. -/
theorem round_trip_no_gain_iff_game : ∃ tr h h' shares returned h'',
    Run (StakingStep ⟨0⟩) (.fresh sampleTokens) tr h ∧
      stake ⟨0⟩ [⟨12⟩] ⟨12⟩ 10000000 h = .ok (shares, h') ∧
      unstake ⟨0⟩ [⟨12⟩] ⟨12⟩ shares h' = .ok (returned, h'') ∧ returned ≤ 10000000 := by
  obtain ⟨tr, h, hrun, hfits, hfit, ⟨shares, h'⟩, hstake, hfit', hshares⟩ : ∃ tr h,
      Run (StakingStep ⟨0⟩) (.fresh sampleTokens) tr h ∧ (∀ e ∈ tr, NoOverflow e.1 e.2) ∧
        NoOverflow h (.stake [⟨12⟩] ⟨12⟩ 10000000) ∧
        ∃ r ∈ (stake ⟨0⟩ [⟨12⟩] ⟨12⟩ 10000000 h).toOption,
          NoOverflow r.2 (.unstake [⟨12⟩] ⟨12⟩ r.1) ∧ h.storage.loadTotalShares ≠ 0 :=
    exists_stakingRun [.initializeStaking [⟨10⟩] ⟨10⟩ ⟨1⟩, .stake [⟨11⟩] ⟨11⟩ 10000000,
      .distributeRewards [⟨12⟩] ⟨12⟩ 3000000] (by decide +kernel)
  replace hstake := Fallible.toOption_eq_some.mp hstake
  obtain ⟨returned, h'', hunstake, hiff⟩ := round_trip_no_gain_iff hrun hfits (by decide) hfit
    hstake hfit' (by decide)
  exact ⟨tr, h, h', shares, returned, h'', hrun, hstake, hunstake,
    hiff.mpr fun hempty => hshares hempty.1⟩

/-- Rewards are paid into a pool without shares; the next staker, who has no
    position, stakes 10000000 and takes the rewards along when leaving. -/
theorem orphaned_rewards_captured : ∃ tr h h' shares returned h'',
    Run (StakingStep ⟨0⟩) (.fresh sampleTokens) tr h ∧ h.storage.position ⟨12⟩ = none ∧
      stake ⟨0⟩ [⟨12⟩] ⟨12⟩ 10000000 h = .ok (shares, h') ∧
      unstake ⟨0⟩ [⟨12⟩] ⟨12⟩ shares h' = .ok (returned, h'') ∧ returned = 10000500 ∧
      ¬ returned ≤ 10000000 := by
  obtain ⟨tr, h, hrun, -, hnone, ⟨shares, h'⟩, hstake, ⟨returned, h''⟩, hunstake, hreturned⟩ :
      ∃ tr h, Run (StakingStep ⟨0⟩) (.fresh sampleTokens) tr h ∧
        (∀ e ∈ tr, NoOverflow e.1 e.2) ∧ h.storage.position ⟨12⟩ = none ∧
        ∃ r ∈ (stake ⟨0⟩ [⟨12⟩] ⟨12⟩ 10000000 h).toOption,
          ∃ u ∈ (unstake ⟨0⟩ [⟨12⟩] ⟨12⟩ r.1 r.2).toOption, u.1 = 10000500 :=
    exists_stakingRun [.initializeStaking [⟨10⟩] ⟨10⟩ ⟨1⟩,
      .distributeRewards [⟨11⟩] ⟨11⟩ 500] (by decide +kernel)
  replace hreturned : returned = 10000500 := hreturned
  exact ⟨tr, h, h', shares, returned, h'', hrun, hnone, Fallible.toOption_eq_some.mp hstake,
    Fallible.toOption_eq_some.mp hunstake, hreturned, by omega⟩

end InverseArena.Staking
