import InverseArena.Host.Token

/-!
# The RWA adapter contract

Model of `contract/rwa-adapter/src` (lib.rs, storage.rs, types.rs). The
workspace's release profile does not enable overflow checks, so the plain
`+=` on `i128` values wraps; the checked and saturating operations are as in
the source. Entry expiry and the contract's events are not modelled, and an
executed `upgrade` ends the life of this code.
-/

namespace InverseArena.RwaAdapter

open MachineInt Host

/-- `RwaConfig`. -/
structure RwaConfig where
  admin : Address
  stakeToken : Address
  totalDeposited : ℤ
  deriving DecidableEq, Repr

/-- `YieldAccrual`. -/
structure YieldAccrual where
  principal : ℤ
  withdrawn : Bool
  deriving DecidableEq, Repr

/-- `RwaError`. -/
inductive RwaError where
  | NotInitialized | AlreadyInitialized | NoDeposit | Unauthorized | AlreadyWithdrawn
  | InsufficientBalance | ArithmeticOverflow | InvalidAmount | NoPendingAdmin | NotAdmin
  deriving DecidableEq, Repr

/-- `YIELD_BPS_PER_YEAR`. -/
def yieldBpsPerYear : ℤ := 500

/-- `SECONDS_PER_YEAR`. -/
def secondsPerYear : ℤ := 31536000

/-- The contract's storage: `RWAINIT`, `RWACONFIG`, `Position(user)`, `PADMIN`. -/
structure RwaStorage where
  initialized : Bool
  config : Option RwaConfig
  position : Address → Option YieldAccrual
  pendingAdmin : Option Address

/-- The storage of a freshly deployed adapter. -/
def RwaStorage.fresh : RwaStorage := ⟨false, none, fun _ => none, none⟩

namespace RwaStorage

def loadConfig (s : RwaStorage) : Result RwaError RwaConfig := okOr s.config .NotInitialized

def loadPosition (s : RwaStorage) (user : Address) : YieldAccrual :=
  (s.position user).getD { principal := 0, withdrawn := false }

def savePosition (s : RwaStorage) (user : Address) (pos : YieldAccrual) : RwaStorage :=
  { s with position := Function.update s.position user (some pos) }

theorem loadPosition_savePosition (s : RwaStorage) (user : Address) (pos : YieldAccrual)
    (u : Address) :
    (s.savePosition user pos).loadPosition u = if u = user then pos else s.loadPosition u := by
  unfold loadPosition savePosition
  by_cases h : u = user
  · subst h; simp
  · simp [h]

end RwaStorage

/-- The adapter's storage together with the token contracts it calls. -/
structure RwaState where
  storage : RwaStorage
  tokens : Tokens

/-- `initialize(admin, stake_token)`. -/
def initializeAdapter (auths : List Address) (admin stakeToken : Address) (h : RwaState) :
    Result RwaError RwaState := do
  requireAuth auths admin
  check (h.storage.initialized = false) .AlreadyInitialized
  let config : RwaConfig := { admin := admin, stakeToken := stakeToken, totalDeposited := 0 }
  pure { h with storage := { h.storage with config := some config, initialized := true } }

/-- `deposit(from, amount)`: records the amount, and moves no token. -/
def deposit (auths : List Address) (sender : Address) (amount : ℤ) (h : RwaState) :
    Result RwaError RwaState := do
  requireAuth auths sender
  check (0 < amount) .InvalidAmount
  let config ← h.storage.loadConfig
  let pos := h.storage.loadPosition sender
  let pos := { pos with principal := wrapI128 (pos.principal + amount) }
  let storage := h.storage.savePosition sender pos
  let cfg := { config with totalDeposited := wrapI128 (config.totalDeposited + amount) }
  pure { h with storage := { storage with config := some cfg } }

/-- `principal.checked_mul(YIELD_BPS_PER_YEAR).and_then(|v| v.checked_div(10000))`. -/
def baseYield (principal : ℤ) : Option ℤ :=
  (checkedMulI128 principal yieldBpsPerYear).bind fun v => checkedDivI128 v 10000

/-- `base_yield.checked_mul(elapsed).and_then(|y| y.checked_div(SECONDS_PER_YEAR)).unwrap_or(0)`
    with `elapsed = env.ledger().timestamp().saturating_sub(0)`. -/
def accrued (base : ℤ) (now : ℕ) : ℤ :=
  ((checkedMulI128 base now).bind fun y => checkedDivI128 y secondsPerYear).getD 0

/-- `withdraw_all(from)` of the adapter deployed at `here`: pays principal and
    yield, capped to what the adapter holds. -/
def withdrawAll (here : Address) (now : ℕ) (auths : List Address) (sender : Address)
    (h : RwaState) : Result RwaError (ℤ × RwaState) := do
  requireAuth auths sender
  let config ← h.storage.loadConfig
  let pos := h.storage.loadPosition sender
  check (pos.principal ≠ 0) .NoDeposit
  check (pos.withdrawn = false) .AlreadyWithdrawn
  let base ← okOr (baseYield pos.principal) .ArithmeticOverflow
  let total ← okOr (checkedAddI128 pos.principal (accrued base now)) .ArithmeticOverflow
  let storage := h.storage.savePosition sender { principal := 0, withdrawn := true }
  let cfg := { config with
    totalDeposited := satSubI128 config.totalDeposited pos.principal }
  let balance := h.tokens.balance cfg.stakeToken here
  let payable := if total > balance then balance else total
  let tokens ← unwrap (h.tokens.transfer cfg.stakeToken here sender payable)
  pure (payable, { storage := { storage with config := some cfg }, tokens := tokens })

/-- `balance_of(user)`. -/
def balanceOf (now : ℕ) (user : Address) (h : RwaState) : ℤ :=
  match h.storage.config with
  | none => 0
  | some _ =>
    let pos := h.storage.loadPosition user
    if pos.withdrawn then 0
    else (checkedAddI128 pos.principal (accrued ((baseYield pos.principal).getD 0) now)).getD 0

/-- `get_total_deposited()`. -/
def getTotalDeposited (h : RwaState) : ℤ :=
  match h.storage.config with
  | none => 0
  | some config => config.totalDeposited

/-- `propose_admin(new_admin)`. -/
def proposeAdmin (auths : List Address) (newAdmin : Address) (h : RwaState) :
    Result RwaError RwaState := do
  let config ← h.storage.loadConfig
  requireAuth auths config.admin
  pure { h with storage := { h.storage with pendingAdmin := some newAdmin } }

/-- `accept_admin()`. -/
def acceptAdmin (auths : List Address) (h : RwaState) : Result RwaError RwaState := do
  let newAdmin ← okOr h.storage.pendingAdmin .NoPendingAdmin
  requireAuth auths newAdmin
  let config ← h.storage.loadConfig
  let config := { config with admin := newAdmin }
  pure { h with storage := { h.storage with config := some config, pendingAdmin := none } }

/-! ## What each operation does -/

section Specs

variable {auths : List Address} {here sender : Address} {amount : ℤ} {now : ℕ} {h h' : RwaState}

theorem deposit_eq_ok : deposit auths sender amount h = .ok h' ↔
    sender ∈ auths ∧ 0 < amount ∧ ∃ config, h.storage.config = some config ∧
      h' = { h with storage :=
        { h.storage.savePosition sender { h.storage.loadPosition sender with
            principal := wrapI128 ((h.storage.loadPosition sender).principal + amount) } with
          config := some { config with
            totalDeposited := wrapI128 (config.totalDeposited + amount) } } } := by
  simp only [deposit, RwaStorage.loadConfig, Fallible.bind_eq_ok, requireAuth_eq_ok, check_eq_ok,
    okOr_eq_ok, Fallible.pure_eq_ok, exists_const, eq_comm (a := h')]

theorem withdrawAll_eq_ok {paid : ℤ} : withdrawAll here now auths sender h = .ok (paid, h') ↔
    sender ∈ auths ∧ ∃ config base total tokens, h.storage.config = some config ∧
      (h.storage.loadPosition sender).principal ≠ 0 ∧
      (h.storage.loadPosition sender).withdrawn = false ∧
      baseYield (h.storage.loadPosition sender).principal = some base ∧
      checkedAddI128 (h.storage.loadPosition sender).principal (accrued base now) = some total ∧
      paid = min total (h.tokens.balance config.stakeToken here) ∧
      h.tokens.transfer config.stakeToken here sender paid = some tokens ∧
      h' = { tokens := tokens, storage :=
        { h.storage.savePosition sender { principal := 0, withdrawn := true } with
          config := some { config with
            totalDeposited :=
              satSubI128 config.totalDeposited (h.storage.loadPosition sender).principal } } } := by
  have hmin : ∀ x y : ℤ, (if x > y then y else x) = min x y := by intro x y; split_ifs <;> omega
  simp only [withdrawAll, RwaStorage.loadConfig, hmin, Fallible.bind_eq_ok, requireAuth_eq_ok,
    check_eq_ok, okOr_eq_ok, unwrap_eq_ok,
    Fallible.pure_eq_ok, exists_const, Prod.mk.injEq]
  constructor
  · rintro ⟨ha, config, hc, hp, hw, base, hb, total, ht, tokens, htr, rfl, rfl⟩
    exact ⟨ha, config, base, total, tokens, hc, hp, hw, hb, ht, rfl, htr, rfl⟩
  · rintro ⟨ha, config, base, total, tokens, hc, hp, hw, hb, ht, rfl, htr, rfl⟩
    exact ⟨ha, config, hc, hp, hw, base, hb, total, ht, tokens, htr, rfl, rfl⟩

end Specs

/-! ## The yield formula -/

theorem baseYield_of_small {principal : ℤ} (h0 : 0 ≤ principal)
    (h : principal * 500 ≤ i128Max) : baseYield principal = some (principal * 500 / 10000) := by
  unfold baseYield checkedMulI128 yieldBpsPerYear
  rw [checkedI128_of_mem (by unfold i128Min; omega) h, Option.bind_some]
  exact checkedDivI128_of_nonneg (by omega) h (by norm_num)

theorem baseYield_of_large {principal : ℤ} (h : i128Max < principal * 500) :
    baseYield principal = none := by
  unfold baseYield checkedMulI128 yieldBpsPerYear
  rw [checkedI128_eq_none h]
  rfl

theorem baseYield_nonneg {principal base : ℤ} (h0 : 0 ≤ principal)
    (h : baseYield principal = some base) : 0 ≤ base := by
  by_cases hl : principal * 500 ≤ i128Max
  · rw [baseYield_of_small h0 hl] at h
    cases h
    omega
  · rw [baseYield_of_large (by omega)] at h
    cases h

theorem accrued_eq {base : ℤ} (h0 : 0 ≤ base) (now : ℕ) :
    accrued base now = if base * now ≤ i128Max then base * now / secondsPerYear else 0 := by
  have hb : 0 ≤ base * now := by positivity
  unfold accrued checkedMulI128
  split_ifs with h
  · rw [checkedI128_of_mem (by unfold i128Min; omega) h, Option.bind_some,
      checkedDivI128_of_nonneg hb h (by unfold secondsPerYear; norm_num)]
    rfl
  · rw [checkedI128_eq_none (by omega)]
    rfl

/-- The yield is never negative, and small enough that adding it to a
    principal whose base yield did not overflow does not overflow either. -/
theorem accrued_bounds {base : ℤ} (h0 : 0 ≤ base) (now : ℕ) :
    0 ≤ accrued base now ∧ accrued base now * 31536000 ≤ i128Max := by
  have hb : 0 ≤ base * now := by positivity
  have hm : (0 : ℤ) ≤ i128Max := by unfold i128Max; norm_num
  rw [accrued_eq h0]
  unfold secondsPerYear
  split_ifs with h
  · constructor <;> omega
  · omega

end InverseArena.RwaAdapter
