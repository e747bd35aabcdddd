import InverseArena.Staking.Replay

/-!
# The quotients of the staking contract

`stake`, `unstake` and `get_staker_stats` multiply before they divide
(`contract/staking/src/lib.rs`, lines 168, 216 and 284), and a product of two
`i128` values wraps in the release build.

Results:
* `computesExactly_iff`: a call computes the mathematical quotient, rounded
  down, exactly if its product does not wrap and is not rounded up to zero.
* `quotients_exact_iff`: all calls of a run do exactly if all their products
  fit.
* `not_quotients_exact`: a stake that mints a negative number of shares.
-/

namespace InverseArena.Staking

open MachineInt Host Transition ProRata

/-! ## Calls that read the statistics -/

/-- What can happen, with the calls that read the statistics. -/
inductive StakingEvent where
  | act (a : StakingAction)
  | getStakerStats (staker : Address)

/-- One event; reading changes nothing. -/
inductive EventStep (here : Address) : StakingState → StakingEvent → StakingState → Prop
  | act {h h' a} : StakingStep here h a h' → EventStep here h (.act a) h'
  | getStakerStats {h staker} : EventStep here h (.getStakerStats staker) h

/-- The shares for `amount` of lines 206-217, rounded down. -/
def exactShares (s : StakingStorage) (amount : ℤ) : ℤ :=
  if s.loadTotalStaked = 0 ∨ s.loadTotalShares = 0 then amount
  else (amount * s.loadTotalShares).fdiv s.loadTotalStaked

/-- The tokens for `shares` of line 284, rounded down. -/
def exactTokens (s : StakingStorage) (shares : ℤ) : ℤ :=
  (shares * s.loadTotalStaked).fdiv s.loadTotalShares

/-- The basis points of lines 167-171, rounded down. -/
def exactBps (s : StakingStorage) (staker : Address) : ℤ :=
  if 0 < s.loadTotalStaked then ((s.getPosition staker).amount * 10000).fdiv s.loadTotalStaked
  else 0

/-- From `h` to `h'` the event has used the exact quotient. -/
def ComputesExactly (here : Address) (h : StakingState) (e : StakingEvent) (h' : StakingState) :
    Prop :=
  match e with
  | .act (.stake auths staker amount) =>
    stake here auths staker amount h = .ok (exactShares h.storage amount, h')
  | .act (.unstake auths staker shares) =>
    unstake here auths staker shares h = .ok (exactTokens h.storage shares, h')
  | .act _ => True
  | .getStakerStats staker =>
    (getStakerStats h.storage staker).stakeShareBps = exactBps h.storage staker

/-- The last event of a history has used the exact quotient. -/
def LastExact (here : Address) (tr : List (StakingState × StakingEvent)) (h' : StakingState) :
    Prop :=
  ∀ e ∈ tr.head?, ComputesExactly here e.1 e.2 h'

/-- The product fits in an `i128`; and a staker's amount, which may be negative,
    is not divided with a remainder then. -/
def ProductFits (h : StakingState) : StakingEvent → Prop
  | .act a => NoOverflow h a
  | .getStakerStats staker =>
    0 < h.storage.loadTotalStaked →
      (i128Min ≤ (h.storage.getPosition staker).amount * 10000 ∧
        (h.storage.getPosition staker).amount * 10000 ≤ i128Max) ∧
      (0 ≤ (h.storage.getPosition staker).amount * 10000 ∨
        h.storage.loadTotalStaked ∣ (h.storage.getPosition staker).amount * 10000)

instance (h : StakingState) : (e : StakingEvent) → Decidable (ProductFits h e)
  | .act a => inferInstanceAs (Decidable (NoOverflow h a))
  | .getStakerStats _ => inferInstanceAs (Decidable (_ → _))

section Events

variable {here staker : Address} {auths : List Address} {amount shares : ℤ}
  {h h' : StakingState} {e : StakingEvent} {tr : List (StakingState × StakingEvent)}

theorem PoolInv.totals (hi : PoolInv here h) (hinit : h.storage.admin.isSome = true) :
    0 ≤ h.storage.loadTotalShares ∧ h.storage.loadTotalShares ≤ h.storage.loadTotalStaked ∧
      h.storage.loadTotalStaked ≤ i128Max := by
  obtain ⟨p, hrep⟩ := hi.pool
  obtain ⟨token, htoken⟩ := hi.configured hinit
  rw [hrep.value, hrep.shares]
  refine ⟨p.nonneg, p.covered, ?_⟩
  rw [← hrep.value]
  exact (hi.backed token htoken).trans ((h.tokens token).balance_le here)

theorem PoolInv.totalStaked_le (hi : PoolInv here h) : h.storage.loadTotalStaked ≤ i128Max := by
  by_cases hinit : h.storage.admin.isSome = true
  · exact (hi.totals hinit).2.2
  · rw [hi.blank (by simpa using hinit)]
    show (0 : ℤ) ≤ i128Max
    unfold i128Max
    norm_num

/-- An accepted `stake` mints the exact shares exactly if its product fits. -/
theorem stake_exact_iff (hi : PoolInv here h)
    (hs : stake here auths staker amount h = .ok (shares, h')) :
    stake here auths staker amount h = .ok (exactShares h.storage amount, h') ↔
      NoOverflow h (.stake auths staker amount) := by
  obtain ⟨-, -, hinit, hpos, hmint, -⟩ := stake_eq_ok.mp hs
  obtain ⟨h0, hle, hmax⟩ := hi.totals hinit
  rw [hs]
  have heq : Except.ok (ε := Fault StakingError) (shares, h') =
      .ok (exactShares h.storage amount, h') ↔ shares = exactShares h.storage amount := by
    simp
  rw [heq]
  change _ ↔ amount * h.storage.loadTotalShares ≤ i128Max
  unfold exactShares
  unfold sharesFor at hmint
  by_cases hzero : h.storage.loadTotalStaked = 0 ∨ h.storage.loadTotalShares = 0
  · have hnone : h.storage.loadTotalShares = 0 := by omega
    rw [if_pos hzero] at hmint ⊢
    simp only [Fallible.bind_eq_ok, Fallible.pure_eq_ok, check_eq_ok, exists_const] at hmint
    refine iff_of_true hmint.2.symm ?_
    rw [hnone, mul_zero]
    unfold i128Max
    norm_num
  · have hprod : 0 ≤ amount * h.storage.loadTotalShares := mul_nonneg hpos.le h0
    rw [if_neg hzero, unwrap_eq_ok] at hmint
    rw [if_neg hzero, checkedDivI128_eq_some hmint, tdiv_wrapI128_eq_fdiv_iff (by omega) hmax]
    constructor
    · exact fun hfit => hfit.1.2
    · exact fun hfit => ⟨⟨by unfold i128Min; omega, hfit⟩, .inl hprod⟩

/-- An accepted `unstake` pays the exact tokens exactly if its product fits. -/
theorem unstake_exact_iff (hi : PoolInv here h)
    (hs : unstake here auths staker shares h = .ok (amount, h')) :
    unstake here auths staker shares h = .ok (exactTokens h.storage shares, h') ↔
      NoOverflow h (.unstake auths staker shares) := by
  obtain ⟨-, -, hinit, hpos, -, hne, hdiv, -⟩ := unstake_eq_ok.mp hs
  obtain ⟨h0, hle, hmax⟩ := hi.totals hinit
  rw [hs]
  have heq : Except.ok (ε := Fault StakingError) (amount, h') =
      .ok (exactTokens h.storage shares, h') ↔ amount = exactTokens h.storage shares := by
    simp
  have hprod : 0 ≤ shares * h.storage.loadTotalStaked := mul_nonneg hpos.le (by omega)
  rw [heq]
  change _ ↔ shares * h.storage.loadTotalStaked ≤ i128Max
  unfold exactTokens
  rw [checkedDivI128_eq_some hdiv, tdiv_wrapI128_eq_fdiv_iff (by omega) (by omega)]
  constructor
  · exact fun hfit => hfit.1.2
  · exact fun hfit => ⟨⟨by unfold i128Min; omega, hfit⟩, .inl hprod⟩

/-- The statistics are exact exactly if the product fits. -/
theorem getStakerStats_exact_iff (hmax : h.storage.loadTotalStaked ≤ i128Max) :
    (getStakerStats h.storage staker).stakeShareBps = exactBps h.storage staker ↔
      ProductFits h (.getStakerStats staker) := by
  change (if h.storage.loadTotalStaked > 0 then _ else _) = exactBps h.storage staker ↔
    (0 < h.storage.loadTotalStaked → _)
  unfold exactBps
  by_cases hpos : 0 < h.storage.loadTotalStaked
  · rw [if_pos hpos, if_pos hpos, tdiv_wrapI128_eq_fdiv_iff hpos hmax]
    exact ⟨fun hfit _ => hfit, fun hfit => hfit hpos⟩
  · rw [if_neg hpos, if_neg hpos]
    exact iff_of_true rfl fun h => absurd h hpos

/-- An event uses the exact quotient exactly if its product fits. -/
theorem computesExactly_iff (hi : PoolInv here h) (hs : EventStep here h e h') :
    ComputesExactly here h e h' ↔ ProductFits h e := by
  cases hs with
  | getStakerStats => exact getStakerStats_exact_iff hi.totalStaked_le
  | act hs =>
    cases hs with
    | stake _ hexec => exact stake_exact_iff hi hexec
    | unstake _ hexec => exact unstake_exact_iff hi hexec
    | _ => exact iff_of_true trivial trivial

theorem EventStep.poolInv (hs : EventStep here h e h') (hi : PoolInv here h)
    (hfit : ProductFits h e) : PoolInv here h' := by
  cases hs with
  | getStakerStats => exact hi
  | act hs =>
    obtain ⟨p, hrep⟩ := hi.pool
    exact (hs.refines hi hfit hrep).1

theorem poolInv_of_each {tokens : Tokens} (hrun : Run (EventStep here) (.fresh tokens) tr h)
    (hfits : EachStep (fun _ h e => ProductFits h e) tr) : PoolInv here h := by
  induction hrun with
  | nil => exact poolInv_fresh here tokens
  | snoc hr hs ih => exact hs.poolInv (ih hfits.2) hfits.1

/-- All calls of a run use the exact quotients, rounded down, exactly if all their
    products fit. -/
theorem quotients_exact_iff {tokens : Tokens}
    (hrun : Run (EventStep here) (.fresh tokens) tr h) :
    AlongRun (LastExact here) tr h ↔ EachStep (fun _ h e => ProductFits h e) tr := by
  refine hrun.alongRun_iff_of_each (by rintro _ ⟨⟩) ?_
  intro tr t e u hr hfits hs
  rw [← computesExactly_iff (poolInv_of_each hr hfits) hs]
  constructor
  · exact fun hlast => hlast _ rfl
  · rintro hexact _ ⟨⟩
    exact hexact

end Events

/-! ## Sample runs -/

/-- Executes an event. -/
def performEvent (here : Address) (e : StakingEvent) (h : StakingState) :
    Option (StakingEvent × StakingState) :=
  match e with
  | .act a => (perform here a h).map fun r => (.act r.1, r.2)
  | .getStakerStats staker => some (.getStakerStats staker, h)

theorem performEvent_step {here : Address} (m : StakingEvent) (h : StakingState) (e : StakingEvent)
    (h' : StakingState) (hp : performEvent here m h = some (e, h')) : EventStep here h e h' := by
  cases m with
  | act a =>
    obtain ⟨⟨a', h''⟩, hperform, heq⟩ := Option.map_eq_some_iff.mp hp
    cases heq
    exact .act (perform_step _ _ _ _ hperform)
  | getStakerStats staker =>
    cases hp
    exact .getStakerStats

/-- A property decided on executed events holds of some run. -/
theorem exists_eventRun {here : Address} (events : List StakingEvent) {h : StakingState}
    {P : List (StakingState × StakingEvent) → StakingState → Prop}
    (hp : ∃ r ∈ replay (performEvent here) events [] h, P r.1 r.2) :
    ∃ tr h', Run (EventStep here) h tr h' ∧ P tr h' :=
  exists_run_of_replay performEvent_step hp

/-- Two stakes, and a look at the statistics. -/
theorem quotients_exact_stakes : ∃ tr h,
    Run (EventStep ⟨0⟩) (.fresh sampleTokens) tr h ∧ h.storage.loadTotalShares = 30000000 ∧
      AlongRun (LastExact ⟨0⟩) tr h := by
  obtain ⟨tr, h, hrun, htotal, hfits⟩ : ∃ tr h, Run (EventStep ⟨0⟩) (.fresh sampleTokens) tr h ∧
      h.storage.loadTotalShares = 30000000 ∧ EachStep (fun _ h e => ProductFits h e) tr :=
    exists_eventRun [.act (.initializeStaking [⟨9⟩] ⟨9⟩ ⟨1⟩),
      .act (.stake [⟨11⟩] ⟨11⟩ 10000000), .act (.stake [⟨12⟩] ⟨12⟩ 20000000),
      .getStakerStats ⟨11⟩] (by decide +kernel)
  exact ⟨tr, h, hrun, htotal, (quotients_exact_iff hrun).mpr hfits⟩

/-- Account 11 stakes `2^64`, and account 12 then `3 * 2^63`: the product wraps to
    `-2^127`, and the second stake mints `-2^63` shares. -/
theorem not_quotients_exact : ∃ tr h,
    Run (EventStep ⟨0⟩) (.fresh fun _ =>
      Ledger.empty.mintAll [(⟨11⟩, 2 ^ 64), (⟨12⟩, 3 * 2 ^ 63)]) tr h ∧
      sharesOf h.storage ⟨12⟩ = -2 ^ 63 ∧
      (∀ e ∈ tr.head?, exactShares e.1.storage (3 * 2 ^ 63) = 3 * 2 ^ 63) ∧
      h.storage.loadTotalShares = 2 ^ 63 ∧ h.storage.loadTotalStaked = 5 * 2 ^ 63 :=
  exists_eventRun [.act (.initializeStaking [⟨9⟩] ⟨9⟩ ⟨1⟩),
    .act (.stake [⟨11⟩] ⟨11⟩ (2 ^ 64)), .act (.stake [⟨12⟩] ⟨12⟩ (3 * 2 ^ 63))] (by decide +kernel)

end InverseArena.Staking
