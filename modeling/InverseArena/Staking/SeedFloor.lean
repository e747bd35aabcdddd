import InverseArena.Staking.Replay

/-!
# The floor under the shares

`stake` asks for `MIN_INITIAL_STAKE` where the pool is empty, so that a few shares
never represent all of it (`contract/staking/src/lib.rs`, lines 40-56 and 205-212);
`unstake` (lines 252-296) does not look at what it leaves behind.

Results:
* `StakingStep.sharesEffect`: only redemptions lower the number of shares, and an
  empty pool gets at least the floor.
* `seedFloor_iff`: the shares keep the floor in exactly the runs whose redemptions do.
* `not_seedFloor`: one share represents the pool after the rest has been redeemed.
-/

namespace InverseArena.Staking

open MachineInt Host Transition ProRata

/-- There are no shares, or at least as many as an empty pool is seeded with. -/
def SeedFloor (h : StakingState) : Prop :=
  h.storage.loadTotalShares = 0 ∨ minInitialStake ≤ h.storage.loadTotalShares

/-- A redemption leaves no share or at least the floor. -/
def LeavesFloor (h : StakingState) : StakingAction → Prop
  | .unstake _ _ shares => shares = h.storage.loadTotalShares ∨
      shares + minInitialStake ≤ h.storage.loadTotalShares
  | _ => True

instance (h : StakingState) : (a : StakingAction) → Decidable (LeavesFloor h a)
  | .unstake _ _ _ => inferInstanceAs (Decidable (_ ∨ _))
  | .initializeStaking _ _ _ | .pause _ | .unpause _ | .stake _ _ _ | .distributeRewards _ _ _
  | .moveTokens _ => isTrue trivial

/-! ## What a step does to the shares -/

/-- The shares after a step. -/
inductive SharesEffect (h h' : StakingState) : StakingAction → Prop
  | stake {auths : List Address} {staker : Address} {amount : ℤ} :
      h.storage.loadTotalShares ≤ h'.storage.loadTotalShares →
      (h.storage.loadTotalShares = 0 → minInitialStake ≤ h'.storage.loadTotalShares) →
      SharesEffect h h' (.stake auths staker amount)
  | unstake {auths : List Address} {staker : Address} {shares : ℤ} :
      h'.storage.loadTotalShares = h.storage.loadTotalShares - shares →
      SharesEffect h h' (.unstake auths staker shares)
  | other {a : StakingAction} : (∀ auths staker shares, a ≠ .unstake auths staker shares) →
      h'.storage.loadTotalShares = h.storage.loadTotalShares → SharesEffect h h' a

variable {here : Address} {h h' : StakingState} {a : StakingAction}

/-- An empty pool is seeded with the floor. -/
theorem minInitialStake_le_of_stake {auths : List Address} {staker : Address} {amount shares : ℤ}
    (hzero : h.storage.loadTotalShares = 0)
    (hs : stake here auths staker amount h = .ok (shares, h')) : minInitialStake ≤ shares := by
  obtain ⟨-, -, -, -, hmint, -⟩ := stake_eq_ok.mp hs
  unfold sharesFor at hmint
  rw [if_pos (.inr hzero)] at hmint
  simp only [Fallible.bind_eq_ok, Fallible.pure_eq_ok, check_eq_ok, exists_const] at hmint
  obtain ⟨hmin, rfl⟩ := hmint
  exact not_lt.mp hmin

theorem StakingStep.sharesEffect (hs : StakingStep here h a h') (hi : PoolInv here h)
    (hfit : NoOverflow h a) : SharesEffect h h' a := by
  obtain ⟨p, hrep⟩ := hi.pool
  cases hs with
  | @stake _ _ _ amount _ hhere hexec =>
    obtain ⟨hpos, hminted, hrep', -⟩ := stake_spec hi hrep hhere hfit hexec
    have htotal : h'.storage.loadTotalShares = h.storage.loadTotalShares + p.minted amount := by
      rw [hrep'.shares, hrep.shares]
      rfl
    have hnn := Pool.minted_nonneg (p := p) hpos.le
    refine .stake (by omega) fun hzero => ?_
    have hfloor := minInitialStake_le_of_stake hzero hexec
    omega
  | unstake hhere hexec =>
    obtain ⟨hpos, hle, -, hrep', -⟩ := unstake_spec hi hrep hhere hfit hexec
    refine .unstake ?_
    rw [hrep'.shares, hrep.shares]
    rfl
  | distributeRewards hhere hexec =>
    obtain ⟨hpos, hrep', -⟩ := distributeRewards_spec hi hrep hhere hexec
    refine .other (by simp) ?_
    rw [hrep'.shares, hrep.shares]
    rfl
  | initializeStaking hexec =>
    simp only [Staking.initializeStaking, Fallible.bind_eq_ok, requireAuth_eq_ok, check_eq_ok,
      Fallible.pure_eq_ok, exists_const] at hexec
    obtain ⟨-, hnone, rfl⟩ := hexec
    refine .other (by simp) ?_
    rw [hi.blank hnone]
    rfl
  | pause hexec | unpause hexec =>
    simp only [Staking.pause, Staking.unpause, StakingStorage.requireAdmin, Fallible.bind_eq_ok,
      okOr_eq_ok, requireAuth_eq_ok, Fallible.pure_eq_ok, exists_const] at hexec
    obtain ⟨-, rfl⟩ := hexec
    exact .other (by simp) rfl
  | moveTokens => exact .other (by simp) rfl

/-- A step keeps the floor exactly if it is no redemption below it. -/
theorem SeedFloor.step_iff (hfloor : SeedFloor h) (hi : PoolInv here h)
    (hs : StakingStep here h a h') (hfit : NoOverflow h a) : SeedFloor h' ↔ LeavesFloor h a := by
  unfold SeedFloor at hfloor ⊢
  cases hs.sharesEffect hi hfit with
  | stake hle hseed =>
    refine iff_of_true (.inr ?_) trivial
    rcases hfloor with hzero | hmin
    · exact hseed hzero
    · exact hmin.trans hle
  | unstake htotal =>
    show _ ↔ _ ∨ _
    rw [htotal]
    omega
  | other hne htotal =>
    rw [htotal]
    refine iff_of_true hfloor ?_
    cases a with
    | unstake auths staker shares => exact absurd rfl (hne auths staker shares)
    | _ => trivial

/-! ## Main results -/

/-- In the runs without overflow the shares keep the floor in every state exactly if
    every redemption takes all shares or leaves the floor. -/
theorem seedFloor_iff {tokens : Tokens} {tr : List (StakingState × StakingAction)}
    (hrun : Run (StakingStep here) (.fresh tokens) tr h)
    (hfits : ∀ e ∈ tr, NoOverflow e.1 e.2) :
    AlongRun (fun _ h => SeedFloor h) tr h ↔ EachStep (fun _ h a => LeavesFloor h a) tr := by
  refine (hrun.restrict hfits).alongRun_iff (.inl rfl) ?_
  intro tr t a u hr hfloor hs
  have hi : PoolInv here t := hr.invariant (fun t a u hi hs => by
    obtain ⟨p, hrep⟩ := hi.pool
    exact (hs.1.refines hi hs.2 hrep).1) (poolInv_fresh here tokens)
  exact hfloor.step_iff hi hs.1 hs.2

/-- Two stakers, of whom one redeems a part and the other everything. -/
theorem seedFloor_two : ∃ tr h, Run (StakingStep ⟨0⟩) (.fresh sampleTokens) tr h ∧
    h.storage.loadTotalShares = 12000000 ∧ AlongRun (fun _ h => SeedFloor h) tr h := by
  obtain ⟨tr, h, hrun, hfits, htotal, hleaves⟩ : ∃ tr h,
      Run (StakingStep ⟨0⟩) (.fresh sampleTokens) tr h ∧ (∀ e ∈ tr, NoOverflow e.1 e.2) ∧
        h.storage.loadTotalShares = 12000000 ∧
        EachStep (fun _ h a => LeavesFloor h a) tr :=
    exists_stakingRun [.initializeStaking [⟨9⟩] ⟨9⟩ ⟨1⟩, .stake [⟨11⟩] ⟨11⟩ 10000000,
      .stake [⟨12⟩] ⟨12⟩ 20000000, .unstake [⟨12⟩] ⟨12⟩ 8000000, .unstake [⟨11⟩] ⟨11⟩ 10000000]
      (by decide +kernel)
  exact ⟨tr, h, hrun, htotal, (seedFloor_iff hrun hfits).mpr hleaves⟩

/-- The only staker redeems all shares but one. -/
theorem not_seedFloor : ∃ tr h, Run (StakingStep ⟨0⟩) (.fresh sampleTokens) tr h ∧
    (∀ e ∈ tr, NoOverflow e.1 e.2) ∧ h.storage.loadTotalShares = 1 ∧ ¬ SeedFloor h := by
  obtain ⟨tr, h, hrun, hfits, hone⟩ : ∃ tr h,
      Run (StakingStep ⟨0⟩) (.fresh sampleTokens) tr h ∧ (∀ e ∈ tr, NoOverflow e.1 e.2) ∧
        h.storage.loadTotalShares = 1 :=
    exists_stakingRun [.initializeStaking [⟨9⟩] ⟨9⟩ ⟨1⟩, .stake [⟨11⟩] ⟨11⟩ 10000000,
      .unstake [⟨11⟩] ⟨11⟩ 9999999] (by decide +kernel)
  refine ⟨tr, h, hrun, hfits, hone, ?_⟩
  unfold SeedFloor minInitialStake
  omega

end InverseArena.Staking
