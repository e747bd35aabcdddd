import InverseArena.Staking.Replay

/-!
# The staking contract is solvent

The positions add up to the shares, the contract holds what it records as
staked, and so the stakers can all leave, in any order.

Results:
* `unstake_all`: a staker who leaves with all shares is paid from what the
  contract holds, and the others' shares stay as they are.
* `exists_unstakeAll`: any list of stakers can leave one after another.
-/

namespace InverseArena.Staking

open MachineInt Host KeyedMap Transition ProRata

/-- The stakers of a list redeem all their shares, one after another; returns
    what they are paid. -/
def unstakeAll (here : Address) :
    List Address → StakingState → Result StakingError (List ℤ × StakingState)
  | [], h => pure ([], h)
  | staker :: rest, h => do
    let (amount, h) ← unstake here [staker] staker (sharesOf h.storage staker) h
    let (amounts, h) ← unstakeAll here rest h
    pure (amount :: amounts, h)

/-- No product overflows while the stakers of the list leave. -/
def ExitsFit (here : Address) : List Address → StakingState → Prop
  | [], _ => True
  | staker :: rest, h =>
    NoOverflow h (.unstake [staker] staker (sharesOf h.storage staker)) ∧
      ∀ amount h', unstake here [staker] staker (sharesOf h.storage staker) h = .ok (amount, h') →
        ExitsFit here rest h'

/-! ## The contract is no staker -/

section Steps

variable {here : Address} {h h' : StakingState} {a : StakingAction}

/-- The contract has no position. -/
def Aloof (here : Address) (h : StakingState) : Prop := h.storage.position here = none

theorem aloof_savePosition {s : StakingStorage} {staker : Address} {pos : StakePosition}
    (hi : s.position here = none) (hne : staker ≠ here) :
    (s.savePosition staker pos).position here = none :=
  (Function.update_of_ne hne.symm _ _).trans hi

/-- No step gives the contract a position. -/
theorem StakingStep.aloof (hs : StakingStep here h a h') (hi : Aloof here h) : Aloof here h' := by
  cases hs with
  | initializeStaking hexec =>
    simp only [Staking.initializeStaking, Fallible.bind_eq_ok, requireAuth_eq_ok, check_eq_ok,
      Fallible.pure_eq_ok, exists_const] at hexec
    obtain ⟨-, -, rfl⟩ := hexec
    exact hi
  | pause hexec =>
    simp only [Staking.pause, StakingStorage.requireAdmin, Fallible.bind_eq_ok, okOr_eq_ok,
      requireAuth_eq_ok, Fallible.pure_eq_ok, exists_const] at hexec
    obtain ⟨-, rfl⟩ := hexec
    exact hi
  | unpause hexec =>
    simp only [Staking.unpause, StakingStorage.requireAdmin, Fallible.bind_eq_ok, okOr_eq_ok,
      requireAuth_eq_ok, Fallible.pure_eq_ok, exists_const] at hexec
    obtain ⟨-, rfl⟩ := hexec
    exact hi
  | stake hhere hexec =>
    obtain ⟨hauth, -, -, -, -, -, token, tokens, -, -, rfl⟩ := stake_eq_ok.mp hexec
    exact aloof_savePosition hi (by rintro rfl; exact hhere hauth)
  | unstake hhere hexec =>
    obtain ⟨hauth, -, -, -, -, -, -, token, tokens, -, -, rfl⟩ := unstake_eq_ok.mp hexec
    exact aloof_savePosition hi (by rintro rfl; exact hhere hauth)
  | distributeRewards hhere hexec =>
    obtain ⟨-, -, -, -, token, tokens, -, -, rfl⟩ := distributeRewards_eq_ok.mp hexec
    exact hi
  | moveTokens _ => exact hi

theorem aloof_of_run {tokens : Tokens} {tr : List (StakingState × StakingAction)}
    (hrun : Run (StakingStep here) (.fresh tokens) tr h) : Aloof here h :=
  hrun.invariant (fun _ _ _ hi hs => hs.aloof hi) rfl

/-- Whoever has shares is not the contract, and the contract is initialized. -/
theorem Aloof.staker_ne (hi : Aloof here h) {staker : Address}
    (hpos : 0 < sharesOf h.storage staker) : staker ≠ here := by
  rintro rfl
  unfold sharesOf StakingStorage.getPosition at hpos
  rw [hi] at hpos
  exact absurd hpos (lt_irrefl 0)

theorem PoolInv.initialized (hi : PoolInv here h) {staker : Address}
    (hpos : 0 < sharesOf h.storage staker) : h.storage.admin.isSome = true := by
  by_contra hnone
  have hblank := hi.blank (Bool.eq_false_iff.mpr hnone)
  rw [hblank] at hpos
  exact absurd hpos (lt_irrefl 0)

end Steps

/-! ## Leaving -/

section Exits

variable {here : Address} {h h' : StakingState} {staker : Address} {order : List Address}

/-- What one staker's exit leaves behind. -/
structure Leaves (here staker : Address) (h : StakingState) (amount : ℤ) (h' : StakingState) :
    Prop where
  covered : 0 ≤ amount ∧ amount ≤ h.storage.loadTotalStaked
  shares : sharesOf h'.storage = Function.update (sharesOf h.storage) staker 0
  staked : h'.storage.loadTotalStaked = h.storage.loadTotalStaked - amount
  paused : h'.storage.isPaused = h.storage.isPaused
  token : h'.storage.token = h.storage.token
  tokens : ∀ token, h.storage.token = some token →
    h'.tokens.balance token here = h.tokens.balance token here - amount

/-- A staker leaves with all shares. -/
theorem unstake_all (hi : PoolInv here h) (hal : Aloof here h)
    (hpaused : h.storage.isPaused = false) (hpos : 0 < sharesOf h.storage staker)
    (hfit : NoOverflow h (.unstake [staker] staker (sharesOf h.storage staker))) :
    ∃ amount h', unstake here [staker] staker (sharesOf h.storage staker) h = .ok (amount, h') ∧
      StakingStep here h (.unstake [staker] staker (sharesOf h.storage staker)) h' ∧
      Leaves here staker h amount h' := by
  obtain ⟨p, hrep⟩ := hi.pool
  have hne := hal.staker_ne hpos
  have hhere : here ∉ [staker] := by
    rw [List.mem_singleton]
    exact hne.symm
  have hfit' : sharesOf h.storage staker * p.value ≤ i128Max := by
    rw [← hrep.value]
    exact hfit
  obtain ⟨h', hs⟩ := exists_unstake hi hrep (List.mem_singleton_self staker) hpaused
    (hi.initialized hpos) hpos le_rfl hfit'
  obtain ⟨hpos', hle, -, hrep', hset⟩ := unstake_spec hi hrep hhere hfit hs
  have hrest := Pool.worth_le hpos.le hle
  refine ⟨_, h', hs, .unstake hhere hs, ⟨Pool.worth_nonneg hpos.le, ?_⟩, ?_, ?_, ?_, hset.token,
    fun token htoken => ?_⟩
  · rw [hrep.value]
    omega
  · rw [hset.position, add_neg_cancel]
  · rw [hrep'.value, hrep.value]
    rfl
  · unfold StakingStorage.isPaused
    rw [hset.paused]
  · rw [hset.tokens token htoken, sub_eq_add_neg]

/-- Stakers leave one after another, and each is paid in full. -/
theorem exists_unstakeAll (hi : PoolInv here h) (hal : Aloof here h)
    (hpaused : h.storage.isPaused = false) (hnodup : order.Nodup)
    (hpos : ∀ a ∈ order, 0 < sharesOf h.storage a) (hfit : ExitsFit here order h) :
    ∃ amounts h', unstakeAll here order h = .ok (amounts, h') ∧
      amounts.length = order.length ∧
      (∀ amount ∈ amounts, 0 ≤ amount) ∧ amounts.sum ≤ h.storage.loadTotalStaked ∧
      (∀ a, sharesOf h'.storage a = if a ∈ order then 0 else sharesOf h.storage a) ∧
      PoolInv here h' ∧
      ∀ token, h.storage.token = some token →
        h'.tokens.balance token here = h.tokens.balance token here - amounts.sum := by
  induction order generalizing h with
  | nil =>
    obtain ⟨p, hrep⟩ := hi.pool
    refine ⟨[], h, rfl, rfl, by simp, ?_, by simp, hi, by simp⟩
    rw [hrep.value]
    exact p.value_nonneg
  | cons staker rest ih =>
    obtain ⟨hfresh, hnodup'⟩ := List.nodup_cons.mp hnodup
    obtain ⟨amount, h₁, hs, hstep, hl⟩ :=
      unstake_all hi hal hpaused (hpos staker List.mem_cons_self) hfit.1
    obtain ⟨p, hrep⟩ := hi.pool
    have hi₁ := (hstep.refines hi hfit.1 hrep).1
    have hpos₁ : ∀ a ∈ rest, 0 < sharesOf h₁.storage a := by
      intro a ha
      have hne : a ≠ staker := by
        rintro rfl
        exact hfresh ha
      rw [hl.shares, Function.update_of_ne hne]
      exact hpos a (List.mem_cons_of_mem _ ha)
    obtain ⟨amounts, h', hrest, hlen, hnn, hsum, hshares, hi', htok⟩ :=
      ih hi₁ (hstep.aloof hal) (hl.paused.trans hpaused) hnodup' hpos₁ (hfit.2 amount h₁ hs)
    refine ⟨amount :: amounts, h', ?_, by simp [hlen], ?_, ?_, fun a => ?_, hi',
      fun token htoken => ?_⟩
    · show (unstake here [staker] staker (sharesOf h.storage staker) h >>= _) = _
      rw [hs]
      show (unstakeAll here rest h₁ >>= _) = _
      rw [hrest]
      rfl
    · intro x hx
      rcases List.mem_cons.mp hx with rfl | hx
      · exact hl.covered.1
      · exact hnn x hx
    · rw [List.sum_cons]
      have := hl.staked
      omega
    · rw [hshares, hl.shares]
      by_cases ha : a = staker
      · subst ha
        simp
      · rw [Function.update_of_ne ha]
        simp [ha]
    · rw [htok token (hl.token.trans htoken), hl.tokens token htoken, List.sum_cons]
      omega

/-- The stake only shrinks as stakers leave: it is enough that the products fit
    at the start. -/
theorem exitsFit_of_bound (hi : PoolInv here h) (hal : Aloof here h)
    (hpaused : h.storage.isPaused = false) (hnodup : order.Nodup)
    (hpos : ∀ a ∈ order, 0 < sharesOf h.storage a)
    (hfit : ∀ a ∈ order, sharesOf h.storage a * h.storage.loadTotalStaked ≤ i128Max) :
    ExitsFit here order h := by
  induction order generalizing h with
  | nil => trivial
  | cons staker rest ih =>
    obtain ⟨hfresh, hnodup'⟩ := List.nodup_cons.mp hnodup
    have hfit₀ : NoOverflow h (.unstake [staker] staker (sharesOf h.storage staker)) :=
      hfit staker List.mem_cons_self
    obtain ⟨amount, h₁, hs, hstep, hl⟩ :=
      unstake_all hi hal hpaused (hpos staker List.mem_cons_self) hfit₀
    obtain ⟨p, hrep⟩ := hi.pool
    refine ⟨hfit₀, fun amount' h' hs' => ?_⟩
    obtain ⟨rfl, rfl⟩ : amount = amount' ∧ h₁ = h' := by
      rw [hs] at hs'
      cases hs'
      exact ⟨rfl, rfl⟩
    have hsame : ∀ a ∈ rest, sharesOf h₁.storage a = sharesOf h.storage a := by
      intro a ha
      have hne : a ≠ staker := by
        rintro rfl
        exact hfresh ha
      rw [hl.shares, Function.update_of_ne hne]
    apply ih (hstep.refines hi hfit₀ hrep).1 (hstep.aloof hal) (hl.paused.trans hpaused) hnodup'
    · intro a ha
      rw [hsame a ha]
      exact hpos a (List.mem_cons_of_mem _ ha)
    · intro a ha
      rw [hsame a ha, hl.staked]
      have hle : h.storage.loadTotalStaked - amount ≤ h.storage.loadTotalStaked := by
        have := hl.covered.1
        omega
      exact (mul_le_mul_of_nonneg_left hle (hi.nonneg a)).trans
        (hfit a (List.mem_cons_of_mem _ ha))

end Exits

/-! ## Solvency -/

/-- In every state reached without overflow the shares add up, they are covered
    by what is staked and this by the contract's balance; and unless the
    contract is paused all the stakers can leave, in any order, until no share
    is left. -/
theorem staking_solvent {here : Address} {tokens : Tokens}
    {tr : List (StakingState × StakingAction)} {h : StakingState}
    (hrun : Run (StakingStep here) (.fresh tokens) tr h)
    (hfits : ∀ e ∈ tr, NoOverflow e.1 e.2) :
    (∑ᶠ a, sharesOf h.storage a = h.storage.loadTotalShares ∧
      0 ≤ h.storage.loadTotalShares ∧ h.storage.loadTotalShares ≤ h.storage.loadTotalStaked ∧
      ∀ token, h.storage.token = some token →
        h.storage.loadTotalStaked ≤ h.tokens.balance token here) ∧
    ∀ order : List Address, order.Nodup → (∀ a, a ∈ order ↔ sharesOf h.storage a ≠ 0) →
      h.storage.isPaused = false → ExitsFit here order h →
      ∃ amounts h', unstakeAll here order h = .ok (amounts, h') ∧
        amounts.length = order.length ∧ (∀ amount ∈ amounts, 0 ≤ amount) ∧
        amounts.sum ≤ h.storage.loadTotalStaked ∧ h'.storage.loadTotalShares = 0 ∧
        (∀ a, sharesOf h'.storage a = 0) ∧
        ∀ token, h.storage.token = some token →
          h'.tokens.balance token here = h.tokens.balance token here - amounts.sum := by
  have hi := poolInv_of_run hrun hfits
  obtain ⟨p, hrep⟩ := hi.pool
  refine ⟨⟨hi.issued, ?_, ?_, hi.backed⟩, fun order hnodup hall hpaused hfit => ?_⟩
  · rw [hrep.shares]
    exact p.nonneg
  · rw [hrep.shares, hrep.value]
    exact p.covered
  · have hpos : ∀ a ∈ order, 0 < sharesOf h.storage a :=
      fun a ha => lt_of_le_of_ne (hi.nonneg a) ((hall a).mp ha).symm
    obtain ⟨amounts, h', hok, hlen, hnn, hsum, hshares, hi', htok⟩ :=
      exists_unstakeAll hi (aloof_of_run hrun) hpaused hnodup hpos hfit
    have hzero : ∀ a, sharesOf h'.storage a = 0 := by
      intro a
      rw [hshares]
      split_ifs with ha
      · rfl
      · by_contra hne
        exact ha ((hall a).mpr hne)
    refine ⟨amounts, h', hok, hlen, hnn, hsum, ?_, hzero, htok⟩
    rw [← hi'.issued, funext hzero]
    exact finsum_zero

/-- When two positions make up all the shares, there are no others. -/
theorem PoolInv.only_two {here : Address} {h : StakingState} (hi : PoolInv here h)
    {a b : Address} (hne : a ≠ b)
    (hsum : sharesOf h.storage a + sharesOf h.storage b = h.storage.loadTotalShares)
    {c : Address} (hca : c ≠ a) (hcb : c ≠ b) : sharesOf h.storage c = 0 := by
  let m := Function.update (sharesOf h.storage) a 0
  have hm : (Function.support m).Finite := support_update_finite hi.finite _ _
  have hother : ∀ x, x ≠ a → m x = sharesOf h.storage x := fun x hx =>
    Function.update_of_ne hx _ _
  have htotal : ∑ᶠ x, Function.update m b 0 x = 0 := by
    rw [finsum_update hm, finsum_update hi.finite, hi.issued, hother b hne.symm]
    omega
  have hnn : ∀ x, 0 ≤ Function.update m b 0 x := by
    intro x
    by_cases hxb : x = b
    · subst hxb
      simp
    · rw [Function.update_of_ne hxb]
      by_cases hxa : x = a
      · subst hxa
        simp [m]
      · rw [hother x hxa]
        exact hi.nonneg x
  have hle := le_finsum (support_update_finite hm b 0) hnn c
  rw [htotal, Function.update_of_ne hcb, hother c hca] at hle
  have := hi.nonneg c
  omega

/-- Accounts 11 and 12 stake, rewards come in, and account 12 leaves before
    account 11. -/
theorem staking_solvent_two_stakers :
    ∃ tr h, Run (StakingStep ⟨20⟩) (.fresh sampleTokens) tr h ∧
      h.storage.loadTotalShares = 30000000 ∧ h.storage.loadTotalStaked = 30000001 ∧
      ∃ amounts h', unstakeAll ⟨20⟩ [⟨12⟩, ⟨11⟩] h = .ok (amounts, h') ∧
        amounts.sum ≤ 30000001 ∧ h'.storage.loadTotalShares = 0 := by
  obtain ⟨tr, h, hrun, hfits, ⟨hpaused, hshares, hstaked, h11, h12⟩⟩ :=
    @exists_stakingRun ⟨20⟩
      [.initializeStaking [⟨10⟩] ⟨10⟩ ⟨1⟩, .stake [⟨11⟩] ⟨11⟩ 10000000,
        .stake [⟨12⟩] ⟨12⟩ 20000000, .distributeRewards [⟨12⟩] ⟨12⟩ 1] (.fresh sampleTokens)
      (fun _ h => h.storage.isPaused = false ∧ h.storage.loadTotalShares = 30000000 ∧
        h.storage.loadTotalStaked = 30000001 ∧ sharesOf h.storage ⟨11⟩ = 10000000 ∧
        sharesOf h.storage ⟨12⟩ = 20000000) (by decide +kernel)
  have hi := poolInv_of_run hrun hfits
  have hal := aloof_of_run hrun
  have hne : (⟨12⟩ : Address) ≠ ⟨11⟩ := by decide
  have hall : ∀ a, a ∈ [(⟨12⟩ : Address), ⟨11⟩] ↔ sharesOf h.storage a ≠ 0 := by
    intro a
    constructor
    · intro ha
      rcases List.mem_pair.mp ha with rfl | rfl
      · omega
      · omega
    · intro ha
      by_contra hnot
      rw [List.mem_pair, not_or] at hnot
      exact ha (hi.only_two hne (by omega) hnot.1 hnot.2)
  have hpos : ∀ a ∈ [(⟨12⟩ : Address), ⟨11⟩], 0 < sharesOf h.storage a :=
    fun a ha => lt_of_le_of_ne (hi.nonneg a) ((hall a).mp ha).symm
  have hfit : ∀ a ∈ [(⟨12⟩ : Address), ⟨11⟩],
      sharesOf h.storage a * h.storage.loadTotalStaked ≤ i128Max := by
    intro a ha
    unfold i128Max
    rcases List.mem_pair.mp ha with rfl | rfl
    · rw [h12, hstaked]
      norm_num
    · rw [h11, hstaked]
      norm_num
  obtain ⟨amounts, h', hok, -, -, hsum, hzero, -⟩ := (staking_solvent hrun hfits).2 _
    (by decide) hall hpaused (exitsFit_of_bound hi hal hpaused (by decide) hpos hfit)
  rw [hstaked] at hsum
  exact ⟨tr, h, hrun, hshares, hstaked, amounts, h', hok, hsum, hzero⟩

end InverseArena.Staking
