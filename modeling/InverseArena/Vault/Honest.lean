import InverseArena.Arena.Effects

/-!
# Honest vaults

What the arena's documentation expects of the yield vault and of the stake
token: deposits are pulled in full, the position only grows on its own, a
withdrawal pays out and returns the whole position, and token transfers are
exact. `HonestVault` states it about the calls of an environment, which
otherwise stay arbitrary; `Reliable` adds that no call fails.

Results:
* `HonestVault.roundReading_spec`: reading the vault and the oracle moves
  nothing, and reads the position.
* `HonestVault.payEach_spec`: paying several accounts in turn.
-/

namespace InverseArena.Arena

open MachineInt

/-- An honest vault at `vault` that holds `token` for the arena. -/
structure HonestVault {H : Type} (env : Env H) (token vault : Address) where
  /-- The token balances. -/
  balance : H → Address → ℤ
  /-- The arena's balance at the vault. -/
  position : H → ℤ
  balance_nonneg : ∀ h, 0 ≤ balance h env.here
  position_nonneg : ∀ h, 0 ≤ position h
  /-- The vault holds the position, and all tokens are part of one supply. -/
  supply : ∀ h, balance h env.here + position h ≤ i128Max
  /-- The arena only acts through the entry points of its contract. -/
  unauthorized : ¬ env.mayAuthorize env.here
  transfer_spec : ∀ {now sender recipient amount h h'},
    env.transfer now token sender recipient amount h = some h' →
      position h' = position h ∧
      (sender = env.here → recipient ≠ env.here →
        0 ≤ amount ∧ amount ≤ balance h env.here ∧
        balance h' env.here = balance h env.here - amount) ∧
      (sender ≠ env.here → recipient = env.here →
        balance h' env.here = balance h env.here + amount)
  deposit_spec : ∀ {now amount h h'}, env.deposit now vault env.here amount h = some h' →
    position h' = position h + amount ∧ balance h' env.here = balance h env.here - amount
  withdrawAll_spec : ∀ {now h x h'}, env.withdrawAll now vault env.here h = some (x, h') →
    x = position h ∧ position h' = 0 ∧ balance h' env.here = balance h env.here + position h
  balanceOf_spec : ∀ {now h x h'}, env.balanceOf now vault env.here h = some (x, h') →
    x = position h ∧ position h' = position h ∧ balance h' env.here = balance h env.here
  oracle_spec : ∀ {now oracle h x h'}, env.getCurrentYieldBps now oracle h = some (x, h') →
    position h' = position h ∧ balance h' env.here = balance h env.here
  evolves_spec : ∀ {now h h'}, env.evolves now h h' →
    position h ≤ position h' ∧ balance h env.here ≤ balance h' env.here

namespace HonestVault

variable {H : Type} {env : Env H} {token vault : Address} (V : HonestVault env token vault)

include V in
/-- Whoever authorizes a call is not the arena. -/
theorem ne_here {auths : List Address} {a : Address} (hauths : ∀ a ∈ auths, env.mayAuthorize a)
    (ha : a ∈ auths) : a ≠ env.here := by
  rintro rfl
  exact V.unauthorized (hauths _ ha)

/-- The arena can pay whatever it holds. -/
def Pays : Prop := ∀ now recipient amount h, 0 ≤ amount → amount ≤ V.balance h env.here →
  ∃ h', env.transfer now token env.here recipient amount h = some h'

/-- No call fails. -/
structure Reliable : Prop where
  pays : V.Pays
  withdraws : ∀ now h, ∃ r, env.withdrawAll now vault env.here h = some r
  answers : ∀ now h, ∃ r, env.balanceOf now vault env.here h = some r

/-- The balance and the position have not changed. -/
def Same (h h' : H) : Prop :=
  V.position h' = V.position h ∧ V.balance h' env.here = V.balance h env.here

theorem same_refl (h : H) : V.Same h h := ⟨rfl, rfl⟩

variable {V} in
theorem Same.trans {h₁ h₂ h₃ : H} (h : V.Same h₁ h₂) (h' : V.Same h₂ h₃) : V.Same h₁ h₃ :=
  ⟨h'.1.trans h.1, h'.2.trans h.2⟩

theorem vaultBalanceOr_spec (now : ℕ) (d : ℤ) (h : H) :
    V.Same h (vaultBalanceOr env now vault d h).2 ∧
      (V.Reliable → (vaultBalanceOr env now vault d h).1 = V.position h) := by
  unfold vaultBalanceOr
  cases hb : env.balanceOf now vault env.here h with
  | none =>
    refine ⟨V.same_refl h, fun hrel => ?_⟩
    obtain ⟨r, hr⟩ := hrel.answers now h
    rw [hb] at hr
    cases hr
  | some r =>
    obtain ⟨hx, hsame⟩ := V.balanceOf_spec hb
    exact ⟨hsame, fun _ => hx⟩

theorem fetchYieldBps_same (w : World H) (oracle : Address) :
    V.Same w.outside (fetchYieldBps env oracle w).2.outside := by
  unfold fetchYieldBps
  cases hb : env.getCurrentYieldBps w.now oracle w.outside with
  | none => exact V.same_refl _
  | some r => exact V.oracle_spec hb

/-- Reading the vault in `resolve_round`. -/
theorem roundReading_spec {config : ArenaConfig} (w : World H) (hv : config.yieldVault = vault) :
    V.Same w.outside (roundReading env config w).2 ∧
      (V.Reliable → (roundReading env config w).1 = V.position w.outside) := by
  have hask := V.fetchYieldBps_same w config.oracleContract
  obtain ⟨hsame, hread⟩ := V.vaultBalanceOr_spec w.now w.storage.loadLastVaultBalance
    (fetchYieldBps env config.oracleContract w).2.outside
  unfold roundReading
  rw [hv]
  exact ⟨hask.trans hsame, fun hrel => (hread hrel).trans hask.1⟩

variable {V}

/-- Paying several accounts in turn. -/
theorem payEach_spec {now : ℕ} {amount : ℤ} {players : List Address} {h h' : H}
    (hpay : payEach env now token amount players h = some h')
    (hne : ∀ p ∈ players, p ≠ env.here) :
    V.position h' = V.position h ∧
      V.balance h' env.here = V.balance h env.here - amount * players.length := by
  induction players generalizing h with
  | nil => cases hpay; simp
  | cons p players ih =>
    obtain ⟨h₁, htr, hrest⟩ := Option.bind_eq_some_iff.mp hpay
    obtain ⟨hpos, hout, -⟩ := V.transfer_spec htr
    obtain ⟨-, -, hbal⟩ := hout rfl (hne p List.mem_cons_self)
    obtain ⟨hpos', hbal'⟩ := ih hrest fun q hq => hne q (List.mem_cons_of_mem _ hq)
    refine ⟨hpos'.trans hpos, ?_⟩
    rw [hbal', hbal, List.length_cons]
    push_cast
    rw [mul_add, mul_one]
    omega

end HonestVault

end InverseArena.Arena
