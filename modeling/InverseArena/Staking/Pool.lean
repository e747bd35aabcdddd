import InverseArena.Staking.Contract
import InverseArena.Library.ProRata
import InverseArena.Library.Transition

/-!
# The staking contract keeps a pro-rata pool

`TSTAKE` and `TSHARES` are the value and the shares of a pool, and `stake`,
`unstake` and `distribute_rewards` (`contract/staking/src/lib.rs`, lines
194-330) are its operations, as long as no product of an amount and a total
overflows.

Results:
* `stake_spec`, `unstake_spec`, `distributeRewards_spec`: what each call does
  to the pool, the positions and the contract's tokens.
* `poolInv_of_run`: the positions add up to the shares, and the contract holds
  the tokens of the pool.
* `StakingStep.refines`: every step is an operation of the pool or keeps it.
* `exists_unstake`: whoever has shares can redeem them.
-/

namespace InverseArena.Staking

open MachineInt Host KeyedMap Transition ProRata

/-- What can happen: a call to the contract by anyone, and token movements by
    others (gifts to the contract included). -/
inductive StakingAction where
  | initializeStaking (auths : List Address) (admin token : Address)
  | pause (auths : List Address)
  | unpause (auths : List Address)
  | stake (auths : List Address) (staker : Address) (amount : ℤ)
  | unstake (auths : List Address) (staker : Address) (shares : ℤ)
  | distributeRewards (auths : List Address) (caller : Address) (amount : ℤ)
  | moveTokens (tokens : Tokens)

/-- One step of the contract deployed at `here`. A failing call is rolled back
    and is no step. The contract makes no call that needs its own
    authorization, so it authorizes none, and its balances fall only through
    its own transfers. -/
inductive StakingStep (here : Address) : StakingState → StakingAction → StakingState → Prop
  | initializeStaking {h h' auths admin token} :
      Staking.initializeStaking auths admin token h = .ok h' →
      StakingStep here h (.initializeStaking auths admin token) h'
  | pause {h h' auths} : Staking.pause auths h = .ok h' → StakingStep here h (.pause auths) h'
  | unpause {h h' auths} : Staking.unpause auths h = .ok h' →
      StakingStep here h (.unpause auths) h'
  | stake {h h' auths staker amount shares} : here ∉ auths →
      Staking.stake here auths staker amount h = .ok (shares, h') →
      StakingStep here h (.stake auths staker amount) h'
  | unstake {h h' auths staker shares amount} : here ∉ auths →
      Staking.unstake here auths staker shares h = .ok (amount, h') →
      StakingStep here h (.unstake auths staker shares) h'
  | distributeRewards {h h' auths caller amount} : here ∉ auths →
      Staking.distributeRewards here auths caller amount h = .ok h' →
      StakingStep here h (.distributeRewards auths caller amount) h'
  | moveTokens {h tokens} : (∀ token, h.tokens.balance token here ≤ tokens.balance token here) →
      StakingStep here h (.moveTokens tokens) { h with tokens := tokens }

/-- A freshly deployed contract on a network with the given tokens. -/
def StakingState.fresh (tokens : Tokens) : StakingState := ⟨.fresh, tokens⟩

/-- The product the call computes fits in an `i128`. -/
def NoOverflow (h : StakingState) : StakingAction → Prop
  | .stake _ _ amount => amount * h.storage.loadTotalShares ≤ i128Max
  | .unstake _ _ shares => shares * h.storage.loadTotalStaked ≤ i128Max
  | _ => True

/-- The shares of `staker`. -/
def sharesOf (s : StakingStorage) (staker : Address) : ℤ := (s.getPosition staker).shares

/-- The stored totals are those of `p`. -/
structure Represents (s : StakingStorage) (p : Pool) : Prop where
  value : s.loadTotalStaked = p.value
  shares : s.loadTotalShares = p.shares

/-- The positions add up to the shares, the totals are those of a pool, and the
    contract holds its value. -/
structure PoolInv (here : Address) (h : StakingState) : Prop where
  /-- Before `initialize` nothing is stored. -/
  blank : h.storage.admin.isSome = false → h.storage = .fresh
  configured : h.storage.admin.isSome = true → ∃ token, h.storage.token = some token
  nonneg : ∀ a, 0 ≤ sharesOf h.storage a
  finite : (Function.support (sharesOf h.storage)).Finite
  issued : ∑ᶠ a, sharesOf h.storage a = h.storage.loadTotalShares
  pool : ∃ p, Represents h.storage p
  backed : ∀ token, h.storage.token = some token →
    h.storage.loadTotalStaked ≤ h.tokens.balance token here

theorem sharesOf_savePosition (s : StakingStorage) (staker : Address) (pos : StakePosition) :
    sharesOf (s.savePosition staker pos) = Function.update (sharesOf s) staker pos.shares := by
  funext a
  unfold sharesOf
  rw [StakingStorage.getPosition_savePosition]
  by_cases h : a = staker
  · subst h; simp
  · simp [h]

theorem poolInv_fresh (here : Address) (tokens : Tokens) : PoolInv here (.fresh tokens) where
  blank := fun _ => rfl
  configured := fun h => nomatch h
  nonneg := fun _ => le_rfl
  finite := by
    have hzero : sharesOf (StakingState.fresh tokens).storage = fun _ => 0 := rfl
    rw [hzero, Function.support_fun_zero]
    exact Set.finite_empty
  issued := finsum_zero
  pool := ⟨.empty, rfl, rfl⟩
  backed := fun _ h => nomatch h

section Specs

variable {here : Address} {auths : List Address} {staker caller : Address} {amount shares : ℤ}
  {h h' : StakingState} {p : Pool}

/-- No position exceeds the total. -/
theorem PoolInv.sharesOf_le (hi : PoolInv here h) (a : Address) :
    sharesOf h.storage a ≤ h.storage.loadTotalShares := by
  rw [← hi.issued]
  exact le_finsum hi.finite hi.nonneg a

/-- Within the range of `i128` the minted shares are those of the pool. -/
theorem sharesFor_eq (hamount : 0 ≤ amount) (hfit : amount * p.shares ≤ i128Max)
    (hs : sharesFor amount p.value p.shares = .ok shares) : shares = p.minted amount := by
  unfold sharesFor at hs
  unfold Pool.minted
  by_cases hzero : p.shares = 0
  · rw [if_pos (.inr hzero)] at hs
    simp only [Fallible.bind_eq_ok, Fallible.pure_eq_ok, check_eq_ok, exists_const] at hs
    rw [if_pos hzero]
    exact hs.2.symm
  · have hpos : 0 < p.shares := lt_of_le_of_ne p.nonneg (Ne.symm hzero)
    have hvalue := p.value_pos hpos
    have hprod : 0 ≤ amount * p.shares := mul_nonneg hamount p.nonneg
    rw [if_neg (by omega), unwrap_eq_ok, wrapI128_of_mem (by unfold i128Min; omega) hfit,
      checkedDivI128_of_nonneg hprod hfit hvalue] at hs
    rw [if_neg hzero]
    exact (Option.some.inj hs).symm

/-- What changes in the positions and the tokens when `staker` gets `shares`
    for `amount` (both negative in an `unstake`). -/
structure Settles (here staker : Address) (h : StakingState) (amount shares : ℤ)
    (h' : StakingState) : Prop where
  initialized : h.storage.admin.isSome = true
  admin : h'.storage.admin = h.storage.admin
  paused : h'.storage.paused = h.storage.paused
  token : h'.storage.token = h.storage.token
  position : sharesOf h'.storage =
    Function.update (sharesOf h.storage) staker (sharesOf h.storage staker + shares)
  tokens : ∀ token, h.storage.token = some token →
    h'.tokens.balance token here = h.tokens.balance token here + amount

/-- An accepted `stake` mints the shares of the pool. -/
theorem stake_spec (hi : PoolInv here h) (hrep : Represents h.storage p) (hhere : here ∉ auths)
    (hfit : NoOverflow h (.stake auths staker amount))
    (hs : stake here auths staker amount h = .ok (shares, h')) :
    ∃ hpos : 0 < amount, shares = p.minted amount ∧
      Represents h'.storage (p.enter amount (Int.le_of_lt hpos)) ∧
      Settles here staker h amount shares h' := by
  obtain ⟨hauth, -, hinit, hpos, hmint, -, token, tokens, htoken, htr, rfl⟩ :=
    stake_eq_ok.mp hs
  have hne : staker ≠ here := by rintro rfl; exact hhere hauth
  obtain ⟨h0, hx, hbal, -⟩ := Tokens.transfer_eq_some htr
  have hhold : tokens.balance token here = h.tokens.balance token here + amount := by
    rw [hbal, move_apply, if_neg hne.symm, if_pos rfl]
    omega
  rw [hrep.value, hrep.shares] at hmint
  have hfit' : amount * p.shares ≤ i128Max := by rw [← hrep.shares]; exact hfit
  obtain rfl := sharesFor_eq h0 hfit' hmint
  -- no sum overflows, since the contract holds the new total
  have hmax := (tokens token).balance_le here
  have hback := hi.backed token htoken
  rw [hrep.value] at hback
  have hcov := (p.enter amount (Int.le_of_lt hpos)).covered
  have hnn := (p.enter amount (Int.le_of_lt hpos)).nonneg
  have hmintnn := Pool.minted_nonneg (p := p) h0
  have hposle := hi.sharesOf_le staker
  have hposnn := hi.nonneg staker
  rw [hrep.shares] at hposle
  change p.shares + p.minted amount ≤ p.value + amount at hcov
  change 0 ≤ p.shares + p.minted amount at hnn
  have hsum : p.value + amount ≤ i128Max := by
    rw [show tokens.balance token here = (tokens token).balance here from rfl] at hhold
    omega
  have hmin : i128Min ≤ 0 := by unfold i128Min; omega
  refine ⟨hpos, rfl, ⟨?_, ?_⟩, hinit, rfl, rfl, rfl, ?_, fun token' htoken' => ?_⟩
  · show wrapI128 (h.storage.loadTotalStaked + amount) = p.value + amount
    rw [hrep.value]
    exact wrapI128_of_mem (by omega) hsum
  · show wrapI128 (h.storage.loadTotalShares + p.minted amount) = p.shares + p.minted amount
    rw [hrep.shares]
    exact wrapI128_of_mem (by omega) (by omega)
  · rw [sharesOf_savePosition]
    show Function.update (sharesOf h.storage) staker
      (wrapI128 (sharesOf h.storage staker + p.minted amount)) = _
    rw [wrapI128_of_mem (by omega) (by omega)]
  · obtain rfl := Option.some.inj (htoken.symm.trans htoken')
    exact hhold

/-- An accepted `unstake` pays what the shares redeem for. -/
theorem unstake_spec (hi : PoolInv here h) (hrep : Represents h.storage p) (hhere : here ∉ auths)
    (hfit : NoOverflow h (.unstake auths staker shares))
    (hs : unstake here auths staker shares h = .ok (amount, h')) :
    ∃ (hpos : 0 < shares) (hle : shares ≤ p.shares), amount = p.worth shares ∧
      Represents h'.storage (p.leave shares (Int.le_of_lt hpos) hle) ∧
      Settles here staker h (-amount) (-shares) h' := by
  obtain ⟨hauth, -, hinit, hpos, hown, hshares, hdiv, token, tokens, htoken, htr, rfl⟩ :=
    unstake_eq_ok.mp hs
  have hne : staker ≠ here := by rintro rfl; exact hhere hauth
  obtain ⟨h0, hx, hbal, -⟩ := Tokens.transfer_eq_some htr
  have hhold : tokens.balance token here = h.tokens.balance token here + -amount := by
    rw [hbal, move_apply, if_pos rfl, if_neg hne.symm]
    omega
  have htotal := hi.sharesOf_le staker
  replace hown : shares ≤ sharesOf h.storage staker := hown
  have hback := hi.backed token htoken
  have hmax := (h.tokens token).balance_le here
  rw [hrep.shares] at htotal hshares hdiv
  rw [hrep.value] at hback hdiv
  have hle : shares ≤ p.shares := hown.trans htotal
  have hfit' : shares * p.value ≤ i128Max := by rw [← hrep.value]; exact hfit
  have hprod : 0 ≤ shares * p.value := mul_nonneg hpos.le p.value_nonneg
  rw [wrapI128_of_mem (by unfold i128Min; omega) hfit',
    checkedDivI128_of_nonneg hprod hfit' (by omega)] at hdiv
  obtain rfl : amount = p.worth shares := (Option.some.inj hdiv).symm
  have hrest := Pool.worth_le hpos.le hle
  have hcov := p.covered
  have hmin : i128Min ≤ 0 := by unfold i128Min; omega
  have hsum : p.value ≤ i128Max := by
    rw [show h.tokens.balance token here = (h.tokens token).balance here from rfl] at hback
    omega
  refine ⟨hpos, hle, rfl, ⟨?_, ?_⟩, hinit, rfl, rfl, rfl, ?_, fun token' htoken' => ?_⟩
  · show wrapI128 (h.storage.loadTotalStaked - p.worth shares) = p.value - p.worth shares
    rw [hrep.value]
    exact wrapI128_of_mem (by omega) (by omega)
  · show wrapI128 (h.storage.loadTotalShares - shares) = p.shares - shares
    rw [hrep.shares]
    exact wrapI128_of_mem (by omega) (by omega)
  · rw [sharesOf_savePosition]
    show Function.update (sharesOf h.storage) staker
      (wrapI128 (sharesOf h.storage staker - shares)) = _
    rw [wrapI128_of_mem (by omega) (by omega), sub_eq_add_neg]
  · obtain rfl := Option.some.inj (htoken.symm.trans htoken')
    exact hhold

/-- Accepted rewards grow the pool. -/
theorem distributeRewards_spec (hi : PoolInv here h) (hrep : Represents h.storage p)
    (hhere : here ∉ auths) (hs : distributeRewards here auths caller amount h = .ok h') :
    ∃ hpos : 0 < amount, Represents h'.storage (p.grow amount (Int.le_of_lt hpos)) ∧
      Settles here caller h amount 0 h' := by
  obtain ⟨hauth, -, hinit, hpos, token, tokens, htoken, htr, rfl⟩ :=
    distributeRewards_eq_ok.mp hs
  have hne : caller ≠ here := by rintro rfl; exact hhere hauth
  obtain ⟨h0, hx, hbal, -⟩ := Tokens.transfer_eq_some htr
  have hhold : tokens.balance token here = h.tokens.balance token here + amount := by
    rw [hbal, move_apply, if_neg hne.symm, if_pos rfl]
    omega
  have hback := hi.backed token htoken
  have hmax := (tokens token).balance_le here
  have hnn := p.value_nonneg
  rw [hrep.value] at hback
  rw [show tokens.balance token here = (tokens token).balance here from rfl] at hhold
  refine ⟨hpos, ⟨?_, hrep.shares⟩, hinit, rfl, rfl, rfl, ?_, fun token' htoken' => ?_⟩
  · show wrapI128 (h.storage.loadTotalStaked + amount) = p.value + amount
    rw [hrep.value]
    exact wrapI128_of_mem (by unfold i128Min; omega) (by omega)
  · rw [add_zero, Function.update_eq_self]
    rfl
  · obtain rfl := Option.some.inj (htoken.symm.trans htoken')
    exact hhold

end Specs

/-! ## The invariant -/

section Steps

variable {here : Address} {auths : List Address} {staker : Address} {amount shares : ℤ}
  {h h' : StakingState} {a : StakingAction} {p q : Pool}

/-- A call that changes the pool by as much as it changes one position and the
    contract's tokens. -/
theorem Settles.poolInv (hs : Settles here staker h amount shares h') (hi : PoolInv here h)
    (hown : 0 ≤ sharesOf h.storage staker + shares) (hrep : Represents h.storage p)
    (hrep' : Represents h'.storage q) (hvalue : q.value = p.value + amount)
    (hshares : q.shares = p.shares + shares) : PoolInv here h' where
  blank := fun hnone => by rw [hs.admin, hs.initialized] at hnone; cases hnone
  configured := fun _ => by rw [hs.token]; exact hi.configured hs.initialized
  nonneg := fun a => by
    rw [hs.position]
    by_cases ha : a = staker
    · subst ha
      rw [Function.update_self]
      exact hown
    · rw [Function.update_of_ne ha]
      exact hi.nonneg a
  finite := by
    rw [hs.position]
    exact support_update_finite hi.finite _ _
  issued := by
    rw [hs.position, finsum_update hi.finite, hi.issued, hrep'.shares, hshares, hrep.shares]
    omega
  pool := ⟨q, hrep'⟩
  backed := fun token htoken => by
    rw [hs.token] at htoken
    have hback := hi.backed token htoken
    rw [hrep.value] at hback
    rw [hs.tokens token htoken, hrep'.value, hvalue]
    omega

/-- A change of the flags and of other accounts' tokens. -/
theorem PoolInv.frame (hi : PoolInv here h) (hadmin : h'.storage.admin = h.storage.admin)
    (hinit : h.storage.admin.isSome = true) (htoken : h'.storage.token = h.storage.token)
    (hstaked : h'.storage.totalStaked = h.storage.totalStaked)
    (hshares : h'.storage.totalShares = h.storage.totalShares)
    (hposition : h'.storage.position = h.storage.position) (htokens : h'.tokens = h.tokens) :
    PoolInv here h' := by
  have hown : sharesOf h'.storage = sharesOf h.storage := by
    funext a
    unfold sharesOf StakingStorage.getPosition
    rw [hposition]
  have hvalue : h'.storage.loadTotalStaked = h.storage.loadTotalStaked := by
    unfold StakingStorage.loadTotalStaked
    rw [hstaked]
  have htotal : h'.storage.loadTotalShares = h.storage.loadTotalShares := by
    unfold StakingStorage.loadTotalShares
    rw [hshares]
  obtain ⟨p, hrep⟩ := hi.pool
  exact {
    blank := fun hnone => by rw [hadmin, hinit] at hnone; cases hnone
    configured := fun _ => by rw [htoken]; exact hi.configured hinit
    nonneg := by rw [hown]; exact hi.nonneg
    finite := by rw [hown]; exact hi.finite
    issued := by rw [hown, htotal]; exact hi.issued
    pool := ⟨p, hvalue.trans hrep.value, htotal.trans hrep.shares⟩
    backed := fun token ht => by
      rw [hvalue, htokens]
      exact hi.backed token (htoken.symm.trans ht) }

/-- Every step without overflow keeps the invariant, and is an operation of the
    pool or keeps it. -/
theorem StakingStep.refines (hs : StakingStep here h a h') (hi : PoolInv here h)
    (hfit : NoOverflow h a) (hrep : Represents h.storage p) :
    PoolInv here h' ∧ ∃ q, Represents h'.storage q ∧ (q = p ∨ Pool.Change p q) := by
  cases hs with
  | @initializeStaking _ auths admin token hexec =>
    simp only [Staking.initializeStaking, Fallible.bind_eq_ok, requireAuth_eq_ok, check_eq_ok,
      Fallible.pure_eq_ok, exists_const] at hexec
    obtain ⟨hauth, hnone, rfl⟩ := hexec
    have hfresh := hi.blank hnone
    have hzero : h.storage.loadTotalStaked = 0 ∧ h.storage.loadTotalShares = 0 := by
      rw [hfresh]
      exact ⟨rfl, rfl⟩
    have hvalue : 0 = p.value := hzero.1.symm.trans hrep.value
    have hshares : 0 = p.shares := hzero.2.symm.trans hrep.shares
    refine ⟨?_, p, ⟨hvalue, hshares⟩, .inl rfl⟩
    exact {
      blank := fun hn => by cases hn
      configured := fun _ => ⟨token, rfl⟩
      nonneg := hi.nonneg
      finite := hi.finite
      issued := hi.issued.trans hzero.2
      pool := ⟨p, hvalue, hshares⟩
      backed := fun t _ => (h.tokens t).nonneg here }
  | pause hexec =>
    simp only [Staking.pause, StakingStorage.requireAdmin, Fallible.bind_eq_ok, okOr_eq_ok,
      requireAuth_eq_ok, Fallible.pure_eq_ok, exists_const] at hexec
    obtain ⟨⟨admin, hadmin, hauth⟩, rfl⟩ := hexec
    exact ⟨hi.frame rfl (by rw [hadmin]; rfl) rfl rfl rfl rfl rfl, p, ⟨hrep.value, hrep.shares⟩,
      .inl rfl⟩
  | unpause hexec =>
    simp only [Staking.unpause, StakingStorage.requireAdmin, Fallible.bind_eq_ok, okOr_eq_ok,
      requireAuth_eq_ok, Fallible.pure_eq_ok, exists_const] at hexec
    obtain ⟨⟨admin, hadmin, hauth⟩, rfl⟩ := hexec
    exact ⟨hi.frame rfl (by rw [hadmin]; rfl) rfl rfl rfl rfl rfl, p, ⟨hrep.value, hrep.shares⟩,
      .inl rfl⟩
  | @stake _ _ staker _ _ hhere hexec =>
    obtain ⟨hpos, rfl, hrep', hset⟩ := stake_spec hi hrep hhere hfit hexec
    have hown := add_nonneg (hi.nonneg staker) (Pool.minted_nonneg (p := p) hpos.le)
    exact ⟨hset.poolInv hi hown hrep hrep' rfl rfl, _, hrep', .inr (.enter hpos.le)⟩
  | @unstake _ _ staker _ _ hhere hexec =>
    obtain ⟨hpos, hle, rfl, hrep', hset⟩ := unstake_spec hi hrep hhere hfit hexec
    have hown := (unstake_eq_ok.mp hexec).2.2.2.2.1
    replace hown : _ ≤ sharesOf h.storage staker := hown
    exact ⟨hset.poolInv hi (by omega) hrep hrep' rfl rfl, _, hrep', .inr (.leave hpos.le hle)⟩
  | @distributeRewards _ _ caller _ hhere hexec =>
    obtain ⟨hpos, hrep', hset⟩ := distributeRewards_spec hi hrep hhere hexec
    have hown := hi.nonneg caller
    exact ⟨hset.poolInv hi (by omega) hrep hrep' rfl (add_zero _).symm, _, hrep',
      .inr (.grow hpos.le)⟩
  | moveTokens hkeep =>
    obtain ⟨h1, h2, h3, h4, h5, h6, h7⟩ := hi
    exact ⟨⟨h1, h2, h3, h4, h5, h6, fun token htoken => (h7 token htoken).trans (hkeep token)⟩, p,
      hrep, .inl rfl⟩

/-- In a run without overflow the totals are those of a pool, and the contract
    holds its value. -/
theorem poolInv_of_run {tokens : Tokens} {tr : List (StakingState × StakingAction)}
    (hrun : Run (StakingStep here) (.fresh tokens) tr h)
    (hfits : ∀ e ∈ tr, NoOverflow e.1 e.2) : PoolInv here h := by
  refine hrun.invariant_of_forall (I := PoolInv here) (C := NoOverflow)
    (fun t a u hi hfit hs => ?_) hfits (poolInv_fresh here tokens)
  obtain ⟨p, hrep⟩ := hi.pool
  exact (hs.refines hi hfit hrep).1

/-- Whoever has shares can redeem them. -/
theorem exists_unstake (hi : PoolInv here h) (hrep : Represents h.storage p)
    (hauth : staker ∈ auths) (hpaused : h.storage.isPaused = false)
    (hinit : h.storage.admin.isSome = true) (hpos : 0 < shares)
    (hown : shares ≤ sharesOf h.storage staker) (hfit : shares * p.value ≤ i128Max) :
    ∃ h', unstake here auths staker shares h = .ok (p.worth shares, h') := by
  obtain ⟨token, htoken⟩ := hi.configured hinit
  have htotal := hi.sharesOf_le staker
  rw [hrep.shares] at htotal
  have hback := hi.backed token htoken
  rw [hrep.value] at hback
  have hprod : 0 ≤ shares * p.value := mul_nonneg hpos.le p.value_nonneg
  have hrest := Pool.worth_le hpos.le (hown.trans htotal)
  obtain ⟨tokens, htr⟩ : ∃ tokens, h.tokens.transfer token here staker (p.worth shares) =
      some tokens := Tokens.exists_transfer (Pool.worth_nonneg hpos.le) (by omega)
  refine ⟨_, unstake_eq_ok.mpr ⟨hauth, hpaused, hinit, hpos, hown, ?_, ?_, token, tokens, htoken,
    htr, rfl⟩⟩
  · rw [hrep.shares]
    omega
  · rw [hrep.value, hrep.shares, wrapI128_of_mem (by unfold i128Min; omega) hfit,
      checkedDivI128_of_nonneg hprod hfit (by omega)]
    rfl

end Steps

end InverseArena.Staking
