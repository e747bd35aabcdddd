import InverseArena.Host.Token

/-!
# The staking contract

Model of `contract/staking/src` (lib.rs, types.rs). The workspace's release
profile does not enable overflow checks, so the plain `+`, `-` and `*` on
`i128` values wrap, while a division by zero, or one whose quotient is not an
`i128`, traps. Entry expiry and the contract's events are not modelled, and an
executed `upgrade` ends the life of this code.

Results:
* `stake_eq_ok`, `unstake_eq_ok`, `distributeRewards_eq_ok`: what the calls
  check and what they leave behind.
-/

namespace InverseArena.Staking

open MachineInt Host

/-- `MIN_INITIAL_STAKE` of a release build. -/
def minInitialStake : ℤ := 10000000

/-- `StakePosition`. -/
structure StakePosition where
  amount : ℤ
  shares : ℤ
  deriving DecidableEq, Repr

/-- `StakingError`. -/
inductive StakingError where
  | NotInitialized | AlreadyInitialized | Paused | InvalidAmount | InsufficientShares
  | ZeroShares | BelowMinimumInitialStake | NoSharesOutstanding
  deriving DecidableEq, Repr

/-- The contract's storage: `ADMIN`, `PAUSED`, `TOKEN`, `TSTAKE`, `TSHARES`,
    `Position(staker)`. -/
structure StakingStorage where
  admin : Option Address
  paused : Option Bool
  token : Option Address
  totalStaked : Option ℤ
  totalShares : Option ℤ
  position : Address → Option StakePosition

/-- The storage of a freshly deployed contract. -/
def StakingStorage.fresh : StakingStorage := ⟨none, none, none, none, none, fun _ => none⟩

namespace StakingStorage

/-- `total_staked()`. -/
def loadTotalStaked (s : StakingStorage) : ℤ := s.totalStaked.getD 0

/-- `total_shares()`. -/
def loadTotalShares (s : StakingStorage) : ℤ := s.totalShares.getD 0

/-- `get_position(staker)`. -/
def getPosition (s : StakingStorage) (staker : Address) : StakePosition :=
  (s.position staker).getD { amount := 0, shares := 0 }

def savePosition (s : StakingStorage) (staker : Address) (pos : StakePosition) :
    StakingStorage :=
  { s with position := Function.update s.position staker (some pos) }

def saveTotals (s : StakingStorage) (totalStaked totalShares : ℤ) : StakingStorage :=
  { s with totalStaked := some totalStaked, totalShares := some totalShares }

/-- `require_admin()`, in a call authorized by `auths`. -/
def requireAdmin (s : StakingStorage) (auths : List Address) : Result StakingError Unit := do
  let admin ← okOr s.admin .NotInitialized
  requireAuth auths admin

/-- `is_paused()`. -/
def isPaused (s : StakingStorage) : Bool := s.paused.getD false

/-- `require_not_paused()`. -/
def requireNotPaused (s : StakingStorage) : Result StakingError Unit :=
  check (s.isPaused = false) .Paused

/-- `require_initialized()`. -/
def requireInitialized (s : StakingStorage) : Result StakingError Unit :=
  check (s.admin.isSome = true) .NotInitialized

theorem getPosition_savePosition (s : StakingStorage) (staker : Address) (pos : StakePosition)
    (a : Address) :
    (s.savePosition staker pos).getPosition a = if a = staker then pos else s.getPosition a := by
  unfold getPosition savePosition
  by_cases h : a = staker
  · subst h; simp
  · simp [h]

end StakingStorage

/-- The contract's storage together with the token contracts it calls. -/
structure StakingState where
  storage : StakingStorage
  tokens : Tokens

/-- `initialize(admin, token)`. -/
def initializeStaking (auths : List Address) (admin token : Address) (h : StakingState) :
    Result StakingError StakingState := do
  requireAuth auths admin
  check (h.storage.admin.isSome = false) .AlreadyInitialized
  pure { h with storage := { h.storage with
    admin := some admin
    token := some token
    totalStaked := some 0
    totalShares := some 0
    paused := some false } }

/-- `pause()`. -/
def pause (auths : List Address) (h : StakingState) : Result StakingError StakingState := do
  h.storage.requireAdmin auths
  pure { h with storage := { h.storage with paused := some true } }

/-- `unpause()`. -/
def unpause (auths : List Address) (h : StakingState) : Result StakingError StakingState := do
  h.storage.requireAdmin auths
  pure { h with storage := { h.storage with paused := some false } }

/-- Lines 206-217 of `stake`: the shares minted for `amount`. -/
def sharesFor (amount totalStaked totalShares : ℤ) : Result StakingError ℤ :=
  if totalStaked = 0 ∨ totalShares = 0 then do
    check (¬ amount < minInitialStake) .BelowMinimumInitialStake
    pure amount
  else unwrap (checkedDivI128 (wrapI128 (amount * totalShares)) totalStaked)

/-- `stake(staker, amount)` of the contract deployed at `here`. -/
def stake (here : Address) (auths : List Address) (staker : Address) (amount : ℤ)
    (h : StakingState) : Result StakingError (ℤ × StakingState) := do
  requireAuth auths staker
  h.storage.requireNotPaused
  h.storage.requireInitialized
  check (¬ amount ≤ 0) .InvalidAmount
  let totalStaked := h.storage.loadTotalStaked
  let totalShares := h.storage.loadTotalShares
  let shares ← sharesFor amount totalStaked totalShares
  check (shares ≠ 0) .ZeroShares
  let storage := h.storage.saveTotals (wrapI128 (totalStaked + amount))
    (wrapI128 (totalShares + shares))
  let position := storage.getPosition staker
  let position : StakePosition := {
    amount := wrapI128 (position.amount + amount)
    shares := wrapI128 (position.shares + shares) }
  let storage := storage.savePosition staker position
  let token ← unwrap storage.token
  let tokens ← unwrap (h.tokens.transfer token staker here amount)
  pure (shares, { storage := storage, tokens := tokens })

/-- `unstake(staker, shares)` of the contract deployed at `here`. -/
def unstake (here : Address) (auths : List Address) (staker : Address) (shares : ℤ)
    (h : StakingState) : Result StakingError (ℤ × StakingState) := do
  requireAuth auths staker
  h.storage.requireNotPaused
  h.storage.requireInitialized
  check (¬ shares ≤ 0) .InvalidAmount
  let position := h.storage.getPosition staker
  check (¬ position.shares < shares) .InsufficientShares
  let totalStaked := h.storage.loadTotalStaked
  let totalShares := h.storage.loadTotalShares
  check (totalShares ≠ 0) .NoSharesOutstanding
  let amount ← unwrap (checkedDivI128 (wrapI128 (shares * totalStaked)) totalShares)
  let storage := h.storage.saveTotals (wrapI128 (totalStaked - amount))
    (wrapI128 (totalShares - shares))
  let position : StakePosition := {
    amount := wrapI128 (position.amount - amount)
    shares := wrapI128 (position.shares - shares) }
  let storage := storage.savePosition staker position
  let token ← unwrap storage.token
  let tokens ← unwrap (h.tokens.transfer token here staker amount)
  pure (amount, { storage := storage, tokens := tokens })

/-- `distribute_rewards(caller, amount)` of the contract deployed at `here`. -/
def distributeRewards (here : Address) (auths : List Address) (caller : Address) (amount : ℤ)
    (h : StakingState) : Result StakingError StakingState := do
  requireAuth auths caller
  h.storage.requireNotPaused
  h.storage.requireInitialized
  check (¬ amount ≤ 0) .InvalidAmount
  let totalStaked := h.storage.loadTotalStaked
  let storage := { h.storage with totalStaked := some (wrapI128 (totalStaked + amount)) }
  let token ← unwrap storage.token
  let tokens ← unwrap (h.tokens.transfer token caller here amount)
  pure { storage := storage, tokens := tokens }

/-- `StakerStats`. -/
structure StakerStats where
  amount : ℤ
  shares : ℤ
  stakeShareBps : ℤ
  deriving DecidableEq, Repr

/-- `get_staker_stats(staker)`. The division by a positive total cannot trap. -/
def getStakerStats (s : StakingStorage) (staker : Address) : StakerStats :=
  let pos := s.getPosition staker
  let total := s.loadTotalStaked
  let shareBps := if total > 0 then (wrapI128 (pos.amount * 10000)).tdiv total else 0
  { amount := pos.amount, shares := pos.shares, stakeShareBps := shareBps }

/-! ## What each operation does -/

section Specs

variable {auths : List Address} {here staker caller : Address} {amount shares : ℤ}
  {h h' : StakingState}

theorem stake_eq_ok : stake here auths staker amount h = .ok (shares, h') ↔
    staker ∈ auths ∧ h.storage.isPaused = false ∧ h.storage.admin.isSome = true ∧ 0 < amount ∧
      sharesFor amount h.storage.loadTotalStaked h.storage.loadTotalShares = .ok shares ∧
      shares ≠ 0 ∧ ∃ token tokens, h.storage.token = some token ∧
        h.tokens.transfer token staker here amount = some tokens ∧
        h' = {
          tokens := tokens
          storage := (h.storage.saveTotals (wrapI128 (h.storage.loadTotalStaked + amount))
            (wrapI128 (h.storage.loadTotalShares + shares))).savePosition staker
              ⟨wrapI128 ((h.storage.getPosition staker).amount + amount),
                wrapI128 ((h.storage.getPosition staker).shares + shares)⟩ } := by
  simp only [stake, StakingStorage.requireNotPaused, StakingStorage.requireInitialized,
    Fallible.bind_eq_ok, requireAuth_eq_ok, check_eq_ok, unwrap_eq_ok, Fallible.pure_eq_ok,
    exists_const, not_le, Prod.mk.injEq]
  constructor
  · rintro ⟨ha, hp, hi, hpos, shares, hs, hne, token, ht, tokens, htr, rfl, rfl⟩
    exact ⟨ha, hp, hi, hpos, hs, hne, token, tokens, ht, htr, rfl⟩
  · rintro ⟨ha, hp, hi, hpos, hs, hne, token, tokens, ht, htr, rfl⟩
    exact ⟨ha, hp, hi, hpos, shares, hs, hne, token, ht, tokens, htr, rfl, rfl⟩

theorem unstake_eq_ok : unstake here auths staker shares h = .ok (amount, h') ↔
    staker ∈ auths ∧ h.storage.isPaused = false ∧ h.storage.admin.isSome = true ∧ 0 < shares ∧
      shares ≤ (h.storage.getPosition staker).shares ∧ h.storage.loadTotalShares ≠ 0 ∧
      checkedDivI128 (wrapI128 (shares * h.storage.loadTotalStaked))
        h.storage.loadTotalShares = some amount ∧
      ∃ token tokens, h.storage.token = some token ∧
        h.tokens.transfer token here staker amount = some tokens ∧
        h' = {
          tokens := tokens
          storage := (h.storage.saveTotals (wrapI128 (h.storage.loadTotalStaked - amount))
            (wrapI128 (h.storage.loadTotalShares - shares))).savePosition staker
              ⟨wrapI128 ((h.storage.getPosition staker).amount - amount),
                wrapI128 ((h.storage.getPosition staker).shares - shares)⟩ } := by
  simp only [unstake, StakingStorage.requireNotPaused, StakingStorage.requireInitialized,
    Fallible.bind_eq_ok, requireAuth_eq_ok, check_eq_ok, unwrap_eq_ok, Fallible.pure_eq_ok,
    exists_const, not_le, not_lt, Prod.mk.injEq]
  constructor
  · rintro ⟨ha, hp, hi, hpos, hle, hne, amount, hdiv, token, ht, tokens, htr, rfl, rfl⟩
    exact ⟨ha, hp, hi, hpos, hle, hne, hdiv, token, tokens, ht, htr, rfl⟩
  · rintro ⟨ha, hp, hi, hpos, hle, hne, hdiv, token, tokens, ht, htr, rfl⟩
    exact ⟨ha, hp, hi, hpos, hle, hne, amount, hdiv, token, ht, tokens, htr, rfl, rfl⟩

theorem distributeRewards_eq_ok : distributeRewards here auths caller amount h = .ok h' ↔
    caller ∈ auths ∧ h.storage.isPaused = false ∧ h.storage.admin.isSome = true ∧ 0 < amount ∧
      ∃ token tokens, h.storage.token = some token ∧
        h.tokens.transfer token caller here amount = some tokens ∧
        h' = { tokens := tokens, storage := { h.storage with
          totalStaked := some (wrapI128 (h.storage.loadTotalStaked + amount)) } } := by
  simp only [distributeRewards, StakingStorage.requireNotPaused,
    StakingStorage.requireInitialized, Fallible.bind_eq_ok, requireAuth_eq_ok, check_eq_ok,
    unwrap_eq_ok, Fallible.pure_eq_ok, exists_const, not_le]
  constructor
  · rintro ⟨ha, hp, hi, hpos, token, ht, tokens, htr, rfl⟩
    exact ⟨ha, hp, hi, hpos, token, tokens, ht, htr, rfl⟩
  · rintro ⟨ha, hp, hi, hpos, token, tokens, ht, htr, rfl⟩
    exact ⟨ha, hp, hi, hpos, token, ht, tokens, htr, rfl⟩

end Specs

end InverseArena.Staking
