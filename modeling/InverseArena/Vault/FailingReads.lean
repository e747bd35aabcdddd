import InverseArena.Arena.Played
import InverseArena.Arena.Views
import InverseArena.Vault.Custody

/-!
# Is principal ever counted as yield?

The vault is honest, but any of its answers to `balance_of` may fail to come. Then
`resolve_round` keeps the recorded balance (`contract/arena/src/lib.rs`, lines 622-625),
while `start_round` records 0 (lines 566-569), so that a `resolve_round` which is
answered counts all that is in the vault.

Results:
* `yield_never_principal`: the counted yield stays below the growth of the position in
  every run in which the vault answers the `start_round` of each round whose
  `resolve_round` it answers.
* `principal_counted`: one `start_round` that is not answered.
-/

namespace InverseArena.Arena

open MachineInt Transition

variable {H : Type}

/-- If the vault answers a `resolve_round`, it has answered the `start_round` of the
    round. -/
def BaselineRead (env : Env H) (tr : List (World H × Action H)) (w : World H) (a : Action H) :
    Prop :=
  a.isResolve = true → (w.balanceAtResolve env).isSome = true →
    ∃ e ∈ lastStart tr, (e.1.balanceAtStart env).isSome = true

instance (env : Env H) (tr : List (World H × Action H)) (w : World H) (a : Action H) :
    Decidable (BaselineRead env tr w a) := by
  unfold BaselineRead
  infer_instance

section Steps

variable {env : Env H} {auths : List Address} {w w' : World H} {c : Call}

/-- The token and the vault of an arena are never changed. -/
theorem Effect.sameContracts (h : Effect env auths w c w') (hw : WellFormed w)
    {config : ArenaConfig} (hc : w.storage.config = some config) :
    ∃ config', w'.storage.config = some config' ∧ config'.stakeToken = config.stakeToken ∧
      config'.yieldVault = config.yieldVault := by
  cases h with
  | initialized ha hnone hfee hlim hbal => exact nomatch hnone.symm.trans hc
  | administered hadm hc₁ hc' hlim hadmin =>
    cases hc₁.symm.trans hc
    exact ⟨_, hc', rfl, rfl⟩
  | @roundResolved config₁ _ hguard hc₁ ha hp hs hstart hnow =>
    obtain ⟨bps, eliminated, events, heq⟩ := @settleRound_eq H env w config₁ hw.nodup
    cases hc₁.symm.trans hc
    rw [heq]
    exact ⟨_, rfl, rfl, rfl⟩
  | joined hguard ha hc₁ => cases hc₁.symm.trans hc; exact ⟨_, rfl, rfl, rfl⟩
  | committed ha hc₁ => exact ⟨_, hc, rfl, rfl⟩
  | revealed ha hc₁ => exact ⟨_, hc, rfl, rfl⟩
  | roundStarted hc₁ => cases hc₁.symm.trans hc; exact ⟨_, rfl, rfl, rfl⟩
  | cancelled hguard hc₁ => cases hc₁.symm.trans hc; exact ⟨_, rfl, rfl, rfl⟩
  | expired hguard hc₁ => cases hc₁.symm.trans hc; exact ⟨_, rfl, rfl, rfl⟩
  | claimed hguard ha hc₁ => cases hc₁.symm.trans hc; exact ⟨_, rfl, rfl, rfl⟩
  | forceCancelled hguard hc₁ => cases hc₁.symm.trans hc; exact ⟨_, rfl, rfl, rfl⟩
  | forceCancelledAgain hguard hc₁ => exact ⟨_, hc, rfl, rfl⟩
  | refunded ha hc₁ => exact ⟨_, hc, rfl, rfl⟩

end Steps

namespace HonestVault

variable {env : Env H} {token vault : Address} (V : HonestVault env token vault)

/-- What the position has grown by on its own since the first `start_round`. -/
def growthSinceStart : List (World H × Action H) → ℤ
  | [] => 0
  | e :: tr =>
    growthSinceStart tr + if (lastStart tr).isSome = true then V.growth e else 0

/-- Neither the counted yield nor the yield part of a prize exceeds that growth. -/
def YieldEarned (tr : List (World H × Action H)) (w : World H) : Prop :=
  ∀ config, w.storage.config = some config → config.Uses token vault →
    getTotalYield w.storage ≤ V.growthSinceStart tr ∧
    ∀ auths p u, Step env w (.call auths (.claim p)) u → ∃ total yieldAmount,
      u.events = w.events ++ [.prizeClaimed p total yieldAmount] ∧
        yieldAmount ≤ V.growthSinceStart tr

/-- What has been counted, and during a round what will be if the vault answers. -/
structure Earned (tr : List (World H × Action H)) (w : World H) : Prop where
  nonneg : 0 ≤ V.growthSinceStart tr
  counted : ∀ config, w.storage.config = some config → config.Uses token vault →
    0 ≤ config.cumulativeYield ∧ config.cumulativeYield ≤ V.growthSinceStart tr
  /-- The recorded balance is that of the vault at the start of the round. -/
  running : ∀ config, w.storage.config = some config → config.Uses token vault →
    config.state = .Active → (∃ e ∈ lastStart tr, (e.1.balanceAtStart env).isSome = true) →
      0 ≤ w.storage.loadLastVaultBalance ∧
      w.storage.loadLastVaultBalance ≤ V.position w.outside ∧
      config.cumulativeYield + (V.position w.outside - w.storage.loadLastVaultBalance) ≤
        V.growthSinceStart tr

section Rounds

variable {V} {tr : List (World H × Action H)} {w w' : World H} {a : Action H}
  {config config' : ArenaConfig}

theorem growthSinceStart_cons : V.growthSinceStart ((w, a) :: tr) =
    V.growthSinceStart tr + if (lastStart tr).isSome = true then V.growth (w, a) else 0 := rfl

theorem growthSinceStart_le (hs : Step env w a w') :
    V.growthSinceStart tr ≤ V.growthSinceStart ((w, a) :: tr) := by
  have hgrow := V.growth_nonneg hs
  rw [growthSinceStart_cons]
  split_ifs <;> omega

/-- The vault of an arena is the one it has been set up with. -/
theorem uses_of_step (hs : Step env w a w') (hw : WellFormed w)
    (hc : w.storage.config = some config) (hc' : w'.storage.config = some config')
    (hv : config'.Uses token vault) : config.Uses token vault := by
  cases hs with
  | call _ hexec =>
    obtain ⟨config'', hc'', htoken, hvault⟩ := (exec_effect hexec).sameContracts hw hc
    cases hc'.symm.trans hc''
    exact ⟨htoken ▸ hv.1, hvault ▸ hv.2⟩
  | external _ => cases hc.symm.trans hc'; exact hv
  | tick _ _ => cases hc.symm.trans hc'; exact hv

theorem roundReading_eq (hc : w.storage.config = some config) :
    (roundReading env config w).1 =
      (w.balanceAtResolve env).getD w.storage.loadLastVaultBalance := by
  unfold roundReading vaultBalanceOr World.balanceAtResolve
  rw [hc]
  dsimp only [Option.bind_some]
  cases env.balanceOf w.now config.yieldVault env.here
      (fetchYieldBps env config.oracleContract w).2.outside with
  | none => rfl
  | some r => rfl

/-- What the vault answers is the position. -/
theorem balanceAtResolve_eq {x : ℤ} (hc : w.storage.config = some config)
    (hv : config.Uses token vault) (hx : w.balanceAtResolve env = some x) :
    x = V.position w.outside := by
  unfold World.balanceAtResolve at hx
  rw [hc] at hx
  obtain ⟨⟨y, outside⟩, hbal, rfl⟩ := Option.map_eq_some_iff.mp hx
  rw [hv.2] at hbal
  exact (V.balanceOf_spec hbal).1.trans (V.fetchYieldBps_same w config.oracleContract).1

theorem balanceAtStart_eq {x : ℤ} (hc : w.storage.config = some config)
    (hv : config.Uses token vault) (hx : w.balanceAtStart env = some x) :
    x = V.position w.outside := by
  unfold World.balanceAtStart at hx
  rw [hc] at hx
  obtain ⟨⟨y, outside⟩, hbal, rfl⟩ := Option.map_eq_some_iff.mp hx
  rw [hv.2] at hbal
  exact (V.balanceOf_spec hbal).1

/-- What `resolve_round` adds has been earned, if the vault has answered the
    `start_round` or does not answer. -/
theorem Earned.resolved (h : V.Earned tr w) (hC : BaselineRead env tr w a)
    (ha : a.isResolve = true) (hc : w.storage.config = some config)
    (hv : config.Uses token vault) (hs : config.state = .Active) :
    0 ≤ satAddI128 config.cumulativeYield (roundYield env config w) ∧
      satAddI128 config.cumulativeYield (roundYield env config w) ≤ V.growthSinceStart tr := by
  obtain ⟨hnonneg, hle⟩ := h.counted config hc hv
  cases hread : w.balanceAtResolve env with
  | none =>
    have hzero : roundYield env config w = 0 := by
      unfold roundYield
      rw [roundReading_eq hc, hread, Option.getD_none, if_pos le_rfl, sub_self]
      rfl
    have hsum := satAddI128_le (a := config.cumulativeYield) (b := 0) (by omega)
    rw [hzero]
    exact ⟨satAddI128_nonneg hnonneg le_rfl, by omega⟩
  | some x =>
    obtain ⟨hbase, hbelow, hround⟩ := h.running config hc hv hs (hC ha (by rw [hread]; rfl))
    have hx := V.balanceAtResolve_eq hc hv hread
    have hsupply := V.supply w.outside
    have hbal := V.balance_nonneg w.outside
    have hyield : roundYield env config w =
        V.position w.outside - w.storage.loadLastVaultBalance := by
      unfold roundYield
      rw [roundReading_eq hc, hread, Option.getD_some, hx, if_pos hbelow, wrapI128_of_mem]
      · unfold i128Min
        omega
      · omega
    rw [hyield]
    refine ⟨satAddI128_nonneg hnonneg (by omega), ?_⟩
    exact (satAddI128_le (by omega)).trans hround

/-- The counted yield after a step. -/
theorem Earned.counted_step (h : V.Earned tr w) (hw : WellFormed w)
    (hC : BaselineRead env tr w a) (hs : Step env w a w')
    (hc' : w'.storage.config = some config') (hv' : config'.Uses token vault) :
    0 ≤ config'.cumulativeYield ∧ config'.cumulativeYield ≤ V.growthSinceStart tr := by
  have hyield' : w'.storage.cumulativeYield = config'.cumulativeYield := by
    unfold ArenaStorage.cumulativeYield
    rw [hc']
    rfl
  by_cases ha : a.isResolve = true
  · obtain ⟨config, result, hrec⟩ := hs.records hw ha
    have hv := uses_of_step hs hw hrec.configured hc' hv'
    rw [← hyield', hrec.yield, hrec.accrued]
    exact h.resolved hC ha hrec.configured hv hrec.active
  · have hsame := (hs.sameRecords hw (Bool.eq_false_iff.mpr ha)).yield
    rw [← hyield', hsame]
    unfold ArenaStorage.cumulativeYield
    cases hc : w.storage.config with
    | none => exact ⟨le_rfl, h.nonneg⟩
    | some config => exact h.counted config hc (uses_of_step hs hw hc hc' hv')

/-- `start_round` only reads the vault. -/
theorem position_of_start {d : ℕ} (hs : Step env w a w') (ha : a.started = some d)
    (hc : w.storage.config = some config) (hv : config.Uses token vault) :
    V.position w'.outside = V.position w.outside := by
  unfold Action.started at ha
  split at ha
  · cases hs with
    | call _ hexec =>
      cases exec_effect hexec with
      | administered hadm => cases hadm
      | roundStarted hc₁ _ _ _ _ =>
        cases hc₁.symm.trans hc
        show V.position (vaultBalanceOr env w.now config.yieldVault 0 w.outside).2 = _
        rw [hv.2]
        exact (V.vaultBalanceOr_spec w.now 0 w.outside).1.1
  · cases ha

/-- While a round goes on, the position only grows on its own. -/
theorem position_of_active (hs : Step env w a w') (hw : WellFormed w) (ha : a.started = none)
    (hact : InState w' .Active) :
    w'.storage.loadLastVaultBalance = w.storage.loadLastVaultBalance ∧
      w'.storage.cumulativeYield = w.storage.cumulativeYield ∧
      V.position w'.outside = V.position w.outside + V.growth (w, a) := by
  unfold ArenaStorage.loadLastVaultBalance
  cases hs with
  | @call _ auths c hauths hexec =>
    have hne : ∀ d, c ≠ .startRound d := by
      rintro d rfl
      cases ha
    have heffect := exec_effect hexec
    obtain ⟨houtside, hrecorded, hres⟩ := heffect.of_active hw hne hact
    refine ⟨?_, (heffect.sameRecords hw hres).yield, ?_⟩
    · rw [hrecorded]
    · rw [houtside]
      exact (add_zero _).symm
  | @external outside _ =>
    refine ⟨rfl, rfl, ?_⟩
    show V.position outside = V.position w.outside + (V.position outside - V.position w.outside)
    omega
  | tick _ _ => exact ⟨rfl, rfl, (add_zero _).symm⟩

/-- The growth of a round counts as long as the round goes on. -/
theorem Earned.running_step (h : V.Earned tr w) (hw : WellFormed w)
    (hbase : Baseline env ((w, a) :: tr) w') (hs : Step env w a w')
    (hc' : w'.storage.config = some config') (hv' : config'.Uses token vault)
    (hs' : config'.state = .Active)
    (hread : ∃ e ∈ lastStart ((w, a) :: tr), (e.1.balanceAtStart env).isSome = true)
    (hcounted : config'.cumulativeYield ≤ V.growthSinceStart tr) :
    0 ≤ w'.storage.loadLastVaultBalance ∧
      w'.storage.loadLastVaultBalance ≤ V.position w'.outside ∧
      config'.cumulativeYield + (V.position w'.outside - w'.storage.loadLastVaultBalance) ≤
        V.growthSinceStart ((w, a) :: tr) := by
  have hact : InState w' .Active := ⟨config', hc', hs'⟩
  cases ha : a.started with
  | some d =>
    -- the baseline is read in this step
    obtain ⟨t, d', hlast, hbal⟩ := hbase hact
    cases (lastStart_cons_of_start ha).symm.trans hlast
    obtain ⟨e, he, hsome⟩ := hread
    cases hlast.symm.trans he
    obtain ⟨x, hx⟩ := Option.isSome_iff_exists.mp hsome
    obtain ⟨config, -, hc, -⟩ := hs.of_start ha
    have hv := uses_of_step hs hw hc hc' hv'
    have hnonneg := V.position_nonneg w.outside
    have hgrown : V.growthSinceStart tr ≤ _ := growthSinceStart_le hs
    rw [hbal, hx, Option.getD_some, V.balanceAtStart_eq hc hv hx, position_of_start hs ha hc hv]
    omega
  | none =>
    obtain ⟨config, hc, hs₀⟩ := hs.active_of_active hw ha hact
    rw [lastStart_cons ha] at hread
    obtain ⟨hnonneg, hbelow, hround⟩ :=
      h.running config hc (uses_of_step hs hw hc hc' hv') hs₀ hread
    have hsome : (lastStart tr).isSome = true := by
      obtain ⟨e, he, -⟩ := hread
      rw [he]
      rfl
    have hgrow := V.growth_nonneg hs
    obtain ⟨hlast, hyield, hpos⟩ := position_of_active (V := V) hs hw ha hact
    unfold ArenaStorage.cumulativeYield at hyield
    rw [hc, hc'] at hyield
    replace hyield : config'.cumulativeYield = config.cumulativeYield := hyield
    rw [growthSinceStart_cons, if_pos hsome, hlast, hpos, hyield]
    omega

theorem Earned.step (h : V.Earned tr w) (hw : WellFormed w)
    (hbase : Baseline env ((w, a) :: tr) w') (hC : BaselineRead env tr w a)
    (hs : Step env w a w') : V.Earned ((w, a) :: tr) w' := by
  have hgrown : V.growthSinceStart tr ≤ _ := growthSinceStart_le hs
  have hcounted : ∀ config', w'.storage.config = some config' → config'.Uses token vault →
      0 ≤ config'.cumulativeYield ∧ config'.cumulativeYield ≤ V.growthSinceStart tr :=
    fun _ hc' hv' => h.counted_step hw hC hs hc' hv'
  refine ⟨h.nonneg.trans hgrown, fun config' hc' hv' => ?_, fun config' hc' hv' hs' hread => ?_⟩
  · obtain ⟨hnonneg, hle⟩ := hcounted config' hc' hv'
    exact ⟨hnonneg, hle.trans hgrown⟩
  · exact h.running_step hw hbase hs hc' hv' hs' hread (hcounted config' hc' hv').2

/-- The yield part of a prize is at most what has been counted. -/
theorem Earned.yieldAmount_le {start : H} {auths : List Address} {p : Address} {u : World H}
    (h : V.Earned tr w) (hcust : V.Custody start tr w) (hw : WellFormed w)
    (hc : w.storage.config = some config) (hv : config.Uses token vault)
    (hs : Step env w (.call auths (.claim p)) u) : ∃ total yieldAmount,
      u.events = w.events ++ [.prizeClaimed p total yieldAmount] ∧
        yieldAmount ≤ V.growthSinceStart tr := by
  cases hs with
  | call hauths hexec =>
    cases exec_effect hexec with
    | administered hadm => cases hadm
    | @claimed _ config₁ withdrawn total between outside hguard ha hc₁ hp hfin hclaimed hwin hwd
        htotal htr =>
      cases hc₁.symm.trans hc
      refine ⟨_, _, rfl, ?_⟩
      obtain ⟨hnonneg, hle⟩ := h.counted config hc hv
      have hunpaid : Unpaid w := .inr (.inr ⟨⟨config, hc, hfin⟩, by rw [hwin]; simp⟩)
      have hheld := (hcust.held config hc hv hunpaid).2
      have hstakes := stakes_nonneg hw hc
      have hsupply := V.supply w.outside
      have hbal := V.balance_nonneg w.outside
      have hwrap : wrapI128 (config.entryFee * config.playerCount) = config.stakes :=
        wrapI128_of_mem (by unfold i128Min; unfold ArenaConfig.stakes at hstakes; omega)
          (by unfold ArenaConfig.stakes at hheld; omega)
      rw [hv.1] at htr
      obtain ⟨-, hpaid, -⟩ := V.transfer_spec htr
      have hpositive := (hpaid rfl (V.ne_here hauths ha)).1
      have hpayout : config.payout ≤ config.stakes + config.cumulativeYield := by
        unfold ArenaConfig.payout
        rw [hwrap]
        exact satAddI128_le (by omega)
      rw [hwrap]
      calc satSubI128 total config.stakes
          ≤ total - config.stakes := satSubI128_le (by unfold i128Min; unfold i128Max at *; omega)
        _ ≤ config.cumulativeYield := by omega
        _ ≤ V.growthSinceStart tr := hle

end Rounds

theorem earned_of_run {start : H} {now : ℕ} {tr : List (World H × Action H)} {w : World H}
    (hrun : Run (Step env) (World.fresh start now) tr w)
    (hC : EachStep (BaselineRead env) tr) : V.Earned tr w := by
  refine (hrun.alongRun (C := BaselineRead env) ?_ (fun tr t a u hr h hstep hs => ?_) hC).last
  · exact ⟨le_rfl, fun _ hc => (nomatch hc), fun _ hc => (nomatch hc)⟩
  · exact h.step (wellFormed_of_run hr) (baseline_of_run (hr.snoc hs)) hstep hs

/-- In every run in which the vault answers the `start_round` of each round whose
    `resolve_round` it answers, no principal is counted as yield. -/
theorem yield_never_principal {start : H} {now : ℕ} {tr : List (World H × Action H)}
    {w : World H} (hrun : Run (Step env) (World.fresh start now) tr w)
    (hC : EachStep (BaselineRead env) tr) : AlongRun V.YieldEarned tr w := by
  refine hrun.alongRun_of_each (fun tr t hr heach config hc hv => ?_) hC
  have hearned : V.Earned tr t := V.earned_of_run hr heach
  refine ⟨?_, fun auths p u hs => ?_⟩
  · rw [getTotalYield_eq hc]
    exact (hearned.counted config hc hv).2
  · exact hearned.yieldAmount_le (V.custody_of_run hr) (wellFormed_of_run hr) hc hv hs

end HonestVault

/-- The first round of the sample game, in which the vault earns 5; with `missed` the vault
    does not answer `start_round`. -/
def sampleRound (missed : Bool) : List (Move (reference true)) := sampleJoins 100 ++
  [.outside (.outage missed), .call [⟨10⟩] (.startRound 60), .outside (.outage false),
    .call [⟨11⟩] (.submitCommitment ⟨11⟩ (sampleCommitment .Heads)), .outside (.grow 5), .tick 60,
    .call [⟨11⟩] (.revealChoice ⟨11⟩ .Heads (Vector.replicate 32 0)),
    .call [⟨10⟩] .resolveRound]

/-- The vault answers, and the 5 that it has earned are counted. -/
theorem yield_never_principal_sample : ∃ tr w,
    Run (Step (reference true)) (World.fresh VaultState.sample 0) tr w ∧
      getTotalYield w.storage = 5 ∧ AlongRun (referenceVault true).YieldEarned tr w := by
  obtain ⟨tr, w, hrun, hyield, hC⟩ : ∃ tr w,
      Run (Step (reference true)) (World.fresh VaultState.sample 0) tr w ∧
        getTotalYield w.storage = 5 ∧ EachStep (BaselineRead (reference true)) tr :=
    exists_run (sampleRound false) (by decide +kernel)
  exact ⟨tr, w, hrun, hyield, (referenceVault true).yield_never_principal hrun hC⟩

/-- The vault does not answer `start_round`, and the 200 that the players have paid are
    counted with the 5. -/
theorem principal_counted : ¬ ∀ tr w,
    Run (Step (reference true)) (World.fresh VaultState.sample 0) tr w →
      (referenceVault true).YieldEarned tr w := by
  intro hearned
  obtain ⟨tr, w, hrun, ⟨config, hc, hv⟩, hyield, hgrowth⟩ : ∃ tr w,
      Run (Step (reference true)) (World.fresh VaultState.sample 0) tr w ∧
        (∃ config ∈ w.storage.config, config.stakeToken = ⟨1⟩ ∧ config.yieldVault = ⟨2⟩) ∧
        getTotalYield w.storage = 205 ∧ (referenceVault true).growthSinceStart tr = 5 :=
    exists_run (sampleRound true) (by decide +kernel)
  have hle := (hearned tr w hrun config hc hv).1
  rw [hyield, hgrowth] at hle
  omega

end InverseArena.Arena
