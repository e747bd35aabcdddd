import InverseArena.Vault.Custody

/-!
# Does the winner take all?

`claim` pays `min(principal + cumulative_yield, withdrawn)`
(`contract/arena/src/lib.rs`, lines 706-752). Growth of the position outside
the rounds is withdrawn but not counted, since `start_round` resets the
baseline; it stays in the arena.

Results:
* `Custody.claim`: what a claim pays and what it leaves.
* `claim_takes_all_iff`: the winner receives everything withdrawn iff the
  position grew only while a round was played.
* `claim_leaves_growth`: growth after the last round is left behind.
-/

namespace InverseArena.Arena

open MachineInt Transition

variable {H : Type} {env : Env H} {token vault : Address} {V : HonestVault env token vault}

namespace HonestVault

/-- Before the claim the payout is the position without the growth outside the
    rounds. -/
theorem Custody.payout {start : H} {tr : List (World H × Action H)} {w : World H}
    {config : ArenaConfig} (h : V.Custody start tr w) (hrel : V.Reliable) (hw : WellFormed w)
    (hidle : 0 ≤ V.idleGrowth start tr) (hc : w.storage.config = some config)
    (hv : config.Uses token vault) (hs : config.state = .Finished)
    (hwin : w.storage.winner ≠ none) :
    V.balance w.outside env.here = V.donated start tr ∧
      config.payout = V.position w.outside - V.idleGrowth start tr ∧ 0 ≤ config.payout := by
  have hunpaid : Unpaid w := .inr (.inr ⟨⟨config, hc, hs⟩, hwin⟩)
  obtain ⟨hbal, -⟩ := h.held config hc hv hunpaid
  obtain ⟨hyield, -, hcount⟩ := h.counted hrel config hc hv hunpaid
  have hcount := hcount (by rw [hs]; simp)
  have hstakes := stakes_nonneg hw hc
  have hsupply := V.supply w.outside
  have hnonneg := V.balance_nonneg w.outside
  have hpayout : config.payout = config.stakes + config.cumulativeYield := by
    show satAddI128 (wrapI128 config.stakes) config.cumulativeYield = _
    rw [wrapI128_of_mem]
    · apply satAddI128_of_mem
      · unfold i128Min
        omega
      · omega
    · unfold i128Min
      omega
    · omega
  exact ⟨hbal, by omega, by omega⟩

/-- A claim pays the position without the growth outside the rounds, which is
    left in the arena. -/
theorem Custody.claim {start : H} {tr : List (World H × Action H)} {w w' : World H}
    {auths : List Address} {winner : Address} {config : ArenaConfig}
    (h : V.Custody start tr w) (hrel : V.Reliable) (hw : WellFormed w)
    (hidle : 0 ≤ V.idleGrowth start tr) (hauths : ∀ a ∈ auths, env.mayAuthorize a)
    (hc : w.storage.config = some config) (hv : config.Uses token vault)
    (he : Effect env auths w (.claim winner) w') :
    w'.transfers = w.transfers ++
        [⟨token, env.here, winner, V.position w.outside - V.idleGrowth start tr⟩] ∧
      V.position w'.outside = 0 ∧
      V.balance w'.outside env.here = V.donated start tr + V.idleGrowth start tr := by
  cases he with
  | administered hadm => cases hadm
  | @claimed _ config₁ withdrawn total between outside hguard ha hc₁ hp hs hclaimed hwin hwd
      htotal htr =>
    obtain rfl := Option.some.inj (hc.symm.trans hc₁)
    obtain ⟨hbal, hpayout, -⟩ := h.payout hrel hw hidle hc hv hs (by rw [hwin]; simp)
    have hother := V.ne_here hauths ha
    obtain ⟨htoken, hvault⟩ := hv
    -- the withdrawal succeeds and empties the position
    obtain ⟨⟨x, h₁⟩, hr⟩ := hrel.withdraws w.now w.outside
    rw [hvault, hr] at hwd
    obtain ⟨rfl, rfl⟩ := Prod.mk.inj hwd
    obtain ⟨hx, hempty, hfull⟩ := V.withdrawAll_spec hr
    rw [htoken] at htr
    obtain ⟨hpos, hout, -⟩ := V.transfer_spec htr
    obtain ⟨-, -, hpaid⟩ := hout rfl hother
    have htotal' : total = V.position w.outside - V.idleGrowth start tr := by
      rw [htotal, hpayout]
      omega
    refine ⟨?_, ?_, ?_⟩
    · rw [← htotal', htoken]
    · show V.position outside = 0
      rw [hpos, hempty]
    · show V.balance outside env.here = _
      omega

end HonestVault

variable {start : H} {now : ℕ} {tr : List (World H × Action H)} {w w' : World H}
  {auths : List Address} {winner : Address} {config : ArenaConfig}

/-- In every run with an honest vault whose calls succeed, however it grows: a
    successful claim pays the winner everything withdrawn, and leaves nothing in
    the vault and in the arena only what it was given on the side, iff the
    position was empty at the start and grew only while the arena was active. -/
theorem claim_takes_all_iff (hrel : V.Reliable)
    (hrun : Run (Step env) (World.fresh start now) tr w)
    (hc : w.storage.config = some config) (hv : config.Uses token vault)
    (hstep : Step env w (.call auths (.claim winner)) w') :
    (w'.transfers = w.transfers ++ [⟨token, env.here, winner, V.position w.outside⟩] ∧
        V.position w'.outside = 0 ∧ V.balance w'.outside env.here = V.donated start tr) ↔
      V.position start = 0 ∧ ∀ e ∈ tr, V.growth e ≠ 0 → InState e.1 .Active := by
  rw [← HonestVault.idleGrowth_eq_zero hrun]
  cases hstep with
  | call hauths hexec =>
    obtain ⟨htransfers, hpos, hbal⟩ := (V.custody_of_run hrun).claim hrel
      (wellFormed_of_run hrun) (HonestVault.idleGrowth_nonneg hrun) hauths hc hv
      (exec_effect hexec)
    constructor
    · rintro ⟨-, -, hbal'⟩
      omega
    · intro hzero
      rw [hzero] at htransfers hbal
      exact ⟨by rw [htransfers, sub_zero], hpos, by omega⟩

/-- The vault earns 50 during the round: the winner gets all 250. -/
theorem claim_takes_all_iff_game : ∃ tr w w',
    Run (Step (reference false)) (World.fresh VaultState.sample 0) tr w ∧
      Step (reference false) w (.call [⟨11⟩] (.claim ⟨11⟩)) w' ∧
      w'.transfers = w.transfers ++ [⟨⟨1⟩, ⟨0⟩, ⟨11⟩, 250⟩] ∧ w'.outside.position = 0 := by
  obtain ⟨tr, w, w', hrun, hstep, hpos, hgrowth, config, hc, hv⟩ : ∃ tr w w',
      Run (Step (reference false)) (World.fresh VaultState.sample 0) tr w ∧
        Step (reference false) w (.call [⟨11⟩] (.claim ⟨11⟩)) w' ∧ w.outside.position = 250 ∧
        (∀ e ∈ tr, (referenceVault false).growth e ≠ 0 → InState e.1 .Active) ∧
        ∃ config ∈ w.storage.config, config.stakeToken = ⟨1⟩ ∧ config.yieldVault = ⟨2⟩ :=
    exists_run_call (sampleGame 100 ++ [.outside (.grow 50), .call [⟨10⟩] .resolveRound]) [⟨11⟩]
      (.claim ⟨11⟩) (by decide +kernel)
  obtain ⟨htransfers, hempty, -⟩ :=
    (claim_takes_all_iff referenceVault_reliable hrun hc hv hstep).mpr ⟨rfl, hgrowth⟩
  refine ⟨tr, w, w', hrun, hstep, ?_, hempty⟩
  rw [htransfers, ← hpos]
  rfl

/-- The vault earns 50 after the last round: the winner gets 200 of the 250
    withdrawn, and the arena keeps 50. -/
theorem claim_leaves_growth : ∃ tr w w',
    Run (Step (reference false)) (World.fresh VaultState.sample 0) tr w ∧
      Step (reference false) w (.call [⟨11⟩] (.claim ⟨11⟩)) w' ∧ w.outside.position = 250 ∧
      w'.transfers.getLast? = some ⟨⟨1⟩, ⟨0⟩, ⟨11⟩, 200⟩ ∧
      (referenceVault false).balance w'.outside ⟨0⟩ = 50 :=
  exists_run_call (sampleGame 100 ++ [.call [⟨10⟩] .resolveRound, .outside (.grow 50)]) [⟨11⟩]
    (.claim ⟨11⟩) (by decide +kernel)

end InverseArena.Arena
