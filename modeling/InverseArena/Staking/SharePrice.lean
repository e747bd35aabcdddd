import InverseArena.Staking.Replay

/-!
# The share price never falls

`stake` and `unstake` divide rounding down, and `distribute_rewards` adds value
without shares (`contract/staking/src/lib.rs`, lines 202-230, 265-286 and
310-321).

Results:
* `share_price_monotone`: in every run without overflow the price of a share
  does not fall while there are shares, and what the others do never lowers
  what a staker's shares redeem for.
-/

namespace InverseArena.Staking

open MachineInt Transition ProRata

/-- What the shares of `staker` redeem for: lines 280-284 of `unstake`. -/
def redeemable (s : StakingStorage) (staker : Address) : ℤ :=
  sharesOf s staker * s.loadTotalStaked / s.loadTotalShares

/-- A `stake` or `unstake` of `staker`. -/
def StakingAction.isOf (staker : Address) : StakingAction → Bool
  | .stake _ a _ | .unstake _ a _ => a = staker
  | _ => false

section Steps

variable {here staker : Address} {h h' : StakingState} {a : StakingAction} {p q : Pool}

theorem redeemable_eq (hrep : Represents h.storage p) :
    redeemable h.storage staker = p.worth (sharesOf h.storage staker) := by
  unfold redeemable Pool.worth
  rw [hrep.value, hrep.shares]

/-- The others' calls do not change a position. -/
theorem StakingStep.sharesOf_eq (hs : StakingStep here h a h') (hi : PoolInv here h)
    (hfit : NoOverflow h a) (hother : a.isOf staker = false) :
    sharesOf h'.storage staker = sharesOf h.storage staker := by
  obtain ⟨p, hrep⟩ := hi.pool
  cases hs with
  | initializeStaking hexec =>
    simp only [Staking.initializeStaking, Fallible.bind_eq_ok, Fallible.pure_eq_ok] at hexec
    obtain ⟨_, -, _, -, rfl⟩ := hexec
    rfl
  | pause hexec =>
    simp only [Staking.pause, Fallible.bind_eq_ok, Fallible.pure_eq_ok] at hexec
    obtain ⟨_, -, rfl⟩ := hexec
    rfl
  | unpause hexec =>
    simp only [Staking.unpause, Fallible.bind_eq_ok, Fallible.pure_eq_ok] at hexec
    obtain ⟨_, -, rfl⟩ := hexec
    rfl
  | stake hhere hexec =>
    obtain ⟨-, -, -, hset⟩ := stake_spec hi hrep hhere hfit hexec
    have hne : staker ≠ _ := Ne.symm (of_decide_eq_false hother)
    rw [hset.position, Function.update_of_ne hne]
  | unstake hhere hexec =>
    obtain ⟨-, -, -, -, hset⟩ := unstake_spec hi hrep hhere hfit hexec
    have hne : staker ≠ _ := Ne.symm (of_decide_eq_false hother)
    rw [hset.position, Function.update_of_ne hne]
  | distributeRewards hhere hexec =>
    obtain ⟨-, -, hset⟩ := distributeRewards_spec hi hrep hhere hexec
    rw [hset.position, add_zero, Function.update_eq_self]
  | moveTokens hkeep => rfl

theorem sharesOf_eq_of_run {tr : List (StakingState × StakingAction)}
    (hrun : Run (StakingStep here) h tr h') (hi : PoolInv here h)
    (hfits : ∀ e ∈ tr, NoOverflow e.1 e.2) (hother : ∀ e ∈ tr, e.2.isOf staker = false) :
    sharesOf h'.storage staker = sharesOf h.storage staker := by
  refine (hrun.invariant_of_forall
    (I := fun t => PoolInv here t ∧ sharesOf t.storage staker = sharesOf h.storage staker)
    (C := fun t a => NoOverflow t a ∧ a.isOf staker = false)
    ?_ (fun e he => ⟨hfits e he, hother e he⟩) ⟨hi, rfl⟩).2
  rintro t a u ⟨hi, heq⟩ ⟨hfit, hoth⟩ hs
  obtain ⟨p, hrep⟩ := hi.pool
  exact ⟨(hs.refines hi hfit hrep).1, (hs.sharesOf_eq hi hfit hoth).trans heq⟩

/-- While there are shares the pool only changes to pools with a higher
    price. -/
theorem priceLE_of_run {tr : List (StakingState × StakingAction)}
    (hrun : Run (StakingStep here) h tr h') (hi : PoolInv here h) (hrep : Represents h.storage p)
    (hfits : ∀ e ∈ tr, NoOverflow e.1 e.2) (hpos : ∀ e ∈ tr, 0 < e.1.storage.loadTotalShares) :
    PoolInv here h' ∧ ∃ q, Represents h'.storage q ∧ Pool.PriceLE p q := by
  refine hrun.invariant_of_forall
    (I := fun t => PoolInv here t ∧ ∃ q, Represents t.storage q ∧ Pool.PriceLE p q)
    (C := fun t a => NoOverflow t a ∧ 0 < t.storage.loadTotalShares)
    ?_ (fun e he => ⟨hfits e he, hpos e he⟩) ⟨hi, p, hrep, .refl p⟩
  rintro t a u ⟨hi, q, hrepq, hle⟩ ⟨hfit, hshares⟩ hs
  obtain ⟨hi', r, hrepr, hchange⟩ := hs.refines hi hfit hrepq
  refine ⟨hi', r, hrepr, ?_⟩
  rw [hrepq.shares] at hshares
  rcases hchange with rfl | hchange
  · exact hle
  · exact hle.trans (hchange.priceLE hshares) hshares

end Steps

/-- In every run without overflow, from any state with shares, the price of a
    share does not fall as long as there are shares, and whatever the others
    do, a staker's shares redeem for at least as much. -/
theorem share_price_monotone {here : Address} {tokens : Tokens} {h h' : StakingState}
    {tr tr' : List (StakingState × StakingAction)}
    (hrun : Run (StakingStep here) (.fresh tokens) tr h)
    (hrun' : Run (StakingStep here) h tr' h') (hfits : ∀ e ∈ tr' ++ tr, NoOverflow e.1 e.2)
    (hpos : ∀ e ∈ tr', 0 < e.1.storage.loadTotalShares)
    (hpos₀ : 0 < h.storage.loadTotalShares) (hpos' : 0 < h'.storage.loadTotalShares) :
    h'.storage.loadTotalStaked * h.storage.loadTotalShares ≥
        h.storage.loadTotalStaked * h'.storage.loadTotalShares ∧
      ∀ staker, (∀ e ∈ tr', e.2.isOf staker = false) →
        redeemable h.storage staker ≤ redeemable h'.storage staker := by
  have hfits₀ : ∀ e ∈ tr, NoOverflow e.1 e.2 := fun e he =>
    hfits e (List.mem_append_right _ he)
  have hfits' : ∀ e ∈ tr', NoOverflow e.1 e.2 := fun e he =>
    hfits e (List.mem_append_left _ he)
  have hi := poolInv_of_run hrun hfits₀
  obtain ⟨p, hrep⟩ := hi.pool
  obtain ⟨-, q, hrepq, hle⟩ := priceLE_of_run hrun' hi hrep hfits' hpos
  refine ⟨?_, fun staker hother => ?_⟩
  · rw [hrep.value, hrep.shares, hrepq.value, hrepq.shares]
    exact hle
  · rw [redeemable_eq hrep, redeemable_eq hrepq, sharesOf_eq_of_run hrun' hi hfits' hother]
    rw [hrep.shares] at hpos₀
    rw [hrepq.shares] at hpos'
    exact hle.worth_le hpos₀ hpos' (hi.nonneg staker)

/-- Staker 11 stakes, rewards come in, and staker 12 enters and leaves with a
    part: meanwhile the shares of staker 11 do not lose value. -/
theorem share_price_monotone_game : ∃ tr h tr' h',
    Run (StakingStep ⟨0⟩) (.fresh sampleTokens) tr h ∧ Run (StakingStep ⟨0⟩) h tr' h' ∧
      h.storage.loadTotalShares = 10000000 ∧ h'.storage.loadTotalShares = 17692306 ∧
      redeemable h.storage ⟨11⟩ ≤ redeemable h'.storage ⟨11⟩ := by
  obtain ⟨tr, h, hrun, hfits, hshares, hnext⟩ : ∃ tr h,
      Run (StakingStep ⟨0⟩) (.fresh sampleTokens) tr h ∧ (∀ e ∈ tr, NoOverflow e.1 e.2) ∧
        h.storage.loadTotalShares = 10000000 ∧
        ∃ r ∈ replay (perform ⟨0⟩) [.stake [⟨12⟩] ⟨12⟩ 10000000, .unstake [⟨12⟩] ⟨12⟩ 1] [] h,
          (∀ e ∈ r.1, NoOverflow e.1 e.2) ∧ (∀ e ∈ r.1, 0 < e.1.storage.loadTotalShares) ∧
            (∀ e ∈ r.1, e.2.isOf ⟨11⟩ = false) ∧ r.2.storage.loadTotalShares = 17692306 :=
    exists_stakingRun [.initializeStaking [⟨10⟩] ⟨10⟩ ⟨1⟩, .stake [⟨11⟩] ⟨11⟩ 10000000,
      .distributeRewards [⟨12⟩] ⟨12⟩ 3000000] (by decide +kernel)
  obtain ⟨⟨tr', h'⟩, hreplay, hfits', hpos, hother, hshares'⟩ := hnext
  have hrun' := Run.of_replay perform_step _ .nil hreplay
  replace hshares' : h'.storage.loadTotalShares = 17692306 := hshares'
  refine ⟨tr, h, tr', h', hrun, hrun', hshares, hshares', ?_⟩
  refine (share_price_monotone hrun hrun' (fun e he => ?_) hpos (by omega) (by omega)).2 ⟨11⟩ hother
  rcases List.mem_append.mp he with he | he
  · exact hfits' e he
  · exact hfits e he

end InverseArena.Staking
