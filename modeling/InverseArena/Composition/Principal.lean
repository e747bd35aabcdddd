import InverseArena.Arena.Replay
import InverseArena.Composition.System
import InverseArena.Vault.Custody

/-!
# Is the principal paid out?

With the RWA adapter as the vault, a join leaves the stake in the arena
(`contract/rwa-adapter/src/lib.rs`, lines 37-57), and the adapter pays the
arena's withdrawal out of nothing. `claim` pays at most what was withdrawn
(`contract/arena/src/lib.rs`, lines 730-741).

Results:
* `Staked.step`, `staked_of_run`: until the first payout the arena holds all
  stakes, and the adapter records them and holds nothing.
* `Staked.claim`: so a claim pays nothing, unless the adapter's yield
  computation overflows.
* `claim_pays_principal_iff`: a claim pays the principal iff it overflows.
* `claim_pays_nothing`: the winner of a game of two players gets nothing.
-/

namespace InverseArena.Composition

open MachineInt Transition Arena RwaAdapter

/-- What there is of an arena before its first payout. -/
structure Stake (arena adapter : Address) (config : ArenaConfig) (w : World RwaState) : Prop where
  records : Records arena adapter config.stakes w.outside
  held : config.stakes ≤ w.outside.tokens.balance config.stakeToken arena
  yield_nonneg : 0 ≤ config.cumulativeYield
  baseline_nonneg : 0 ≤ w.storage.loadLastVaultBalance

/-- The stakes of an arena whose vault is the adapter, until its first payout. -/
structure Staked (arena adapter : Address) (w : World RwaState) : Prop where
  blank : w.storage.config = none → Records arena adapter 0 w.outside
  unpaid : ∀ config, w.storage.config = some config → config.yieldVault = adapter → Unpaid w →
    Stake arena adapter config w

section Steps

variable {arena adapter : Address} {sha256 : List UInt8 → BytesN 32}
  {rate : ℕ → Address → RwaState → Option ℕ} {w w' : World RwaState} {a : Action RwaState}
  {auths : List Address} {c : Call} {config config' : ArenaConfig}

theorem Stake.stakes_le (h : Stake arena adapter config w) : config.stakes ≤ i128Max :=
  h.held.trans ((w.outside.tokens config.stakeToken).balance_le arena)

/-- Reading the adapter's balance changes nothing. -/
theorem vaultBalanceOr_eq {now : ℕ} {d : ℤ} {h : RwaState} :
    vaultBalanceOr (adapterEnv arena adapter sha256 rate) now adapter d h =
      (RwaAdapter.balanceOf now arena h, h) := by
  show Option.getD (if adapter = adapter then _ else none) (d, h) = _
  rw [if_pos rfl]
  rfl

theorem roundReading_eq (hv : config.yieldVault = adapter) :
    roundReading (adapterEnv arena adapter sha256 rate) config w =
      (RwaAdapter.balanceOf w.now arena w.outside, w.outside) := by
  have hask : (fetchYieldBps (adapterEnv arena adapter sha256 rate) config.oracleContract
      w).2.outside = w.outside := by
    unfold fetchYieldBps
    cases hrate : (adapterEnv arena adapter sha256 rate).getCurrentYieldBps w.now
        config.oracleContract w.outside with
    | none => rfl
    | some r =>
      obtain ⟨bps, -, rfl⟩ := Option.map_eq_some_iff.mp hrate
      rfl
  unfold roundReading
  rw [hv, hask, vaultBalanceOr_eq]

/-- The yield of a round is never negative. -/
theorem Stake.roundYield_nonneg (h : Stake arena adapter config w)
    (hv : config.yieldVault = adapter) (hstakes : 0 ≤ config.stakes) :
    0 ≤ roundYield (adapterEnv arena adapter sha256 rate) config w := by
  have hread := @Records.balanceOf_bounds _ _ _ _ w.now h.records hstakes
  have hbase := h.baseline_nonneg
  unfold roundYield
  rw [roundReading_eq hv]
  dsimp only
  split_ifs with hle
  · rw [wrapI128_of_mem]
    · omega
    · unfold i128Min
      omega
    · omega
  · exact le_rfl

/-- A call that changes neither the stakes nor the surroundings. -/
theorem Staked.frame (h : Staked arena adapter w) (hc : w.storage.config = some config)
    (hc' : w'.storage.config = some config') (hvault : config'.yieldVault = config.yieldVault)
    (htoken : config'.stakeToken = config.stakeToken) (hstakes : config'.stakes = config.stakes)
    (hyield : config'.cumulativeYield = config.cumulativeYield)
    (hstate : config'.state = config.state) (hwin : w'.storage.winner = w.storage.winner)
    (hlast : w'.storage.lastVaultBalance = w.storage.lastVaultBalance)
    (hout : w'.outside = w.outside) : Staked arena adapter w' := by
  refine ⟨fun hnone => ?_, fun config'' hc'' hv hu => ?_⟩
  · rw [hc'] at hnone
    cases hnone
  · obtain rfl := Option.some.inj (hc'.symm.trans hc'')
    have hs := h.unpaid config hc (hvault.symm.trans hv) (hu.of_frame hc hc' hstate hwin)
    have hload : w'.storage.loadLastVaultBalance = w.storage.loadLastVaultBalance := by
      unfold ArenaStorage.loadLastVaultBalance
      rw [hlast]
    constructor
    · rw [hstakes, hout]
      exact hs.records
    · rw [hstakes, htoken, hout]
      exact hs.held
    · rw [hyield]
      exact hs.yield_nonneg
    · rw [hload]
      exact hs.baseline_nonneg

/-- After a payout nothing is claimed here. -/
theorem Staked.of_paid (hc' : w'.storage.config = some config') (hpaid : ¬ Unpaid w') :
    Staked arena adapter w' where
  blank := fun hnone => by rw [hc'] at hnone; cases hnone
  unpaid := fun _ _ _ hu => absurd hu hpaid

/-- The fee of a new player is recorded by the adapter, and stays in the arena. -/
theorem Staked.join (h : Staked arena adapter w) (hne : arena ≠ adapter) (hw : WellFormed w)
    (hauths : ∀ a ∈ auths, a ≠ arena ∧ a ≠ adapter) {player : Address}
    (he : Effect (adapterEnv arena adapter sha256 rate) auths w (.joinArena player) w') :
    Staked arena adapter w' := by
  cases he with
  | administered hadm => cases hadm
  | @joined _ config paid outside hguard ha hc hp hs hne' hban hnone hmax htr hdep =>
    refine ⟨fun hnone => ?_, fun config' hc' hv hu => ?_⟩
    · cases hnone
    · cases hc'
      have hvault : config.yieldVault = adapter := hv
      have hstake := h.unpaid config hc hvault (.inl ⟨config, hc, hs⟩)
      have hstakes := stakes_join hw hc player
      have hnonneg := stakes_nonneg hw hc
      have hfee := hw.fee config hc
      obtain ⟨hrec, hbal⟩ := hstake.records.transfer hne (hauths player ha) htr
      have hheld : config.stakes + config.entryFee ≤
          paid.tokens.balance config.stakeToken arena := by
        have hle := hstake.held
        omega
      have hfit := hheld.trans ((paid.tokens config.stakeToken).balance_le arena)
      rw [hvault] at hdep
      obtain ⟨hrec', htokens⟩ := hrec.deposit hnonneg hfit hdep
      refine ⟨?_, ?_, hstake.yield_nonneg, ?_⟩
      · show Records arena adapter (config.entryFee * _) outside
        rw [hstakes]
        exact hrec'
      · show config.entryFee * _ ≤ outside.tokens.balance config.stakeToken arena
        rw [hstakes, htokens]
        exact hheld
      · exact satAddI128_nonneg hstake.baseline_nonneg hfee.le

/-- `start_round` reads the adapter's balance as the baseline. -/
theorem Staked.startRound (h : Staked arena adapter w) (hw : WellFormed w) {d : ℕ}
    (he : Effect (adapterEnv arena adapter sha256 rate) auths w (.startRound d) w') :
    Staked arena adapter w' := by
  cases he with
  | administered hadm => cases hadm
  | @roundStarted _ config hc ha hp hs hmin =>
    refine ⟨fun hnone => ?_, fun config' hc' hv hu => ?_⟩
    · cases hnone
    · cases hc'
      have hvault : config.yieldVault = adapter := hv
      have hstake := h.unpaid config hc hvault (.inl ⟨config, hc, hs⟩)
      have hread := @Records.balanceOf_bounds _ _ _ _ w.now hstake.records (stakes_nonneg hw hc)
      rw [hvault, vaultBalanceOr_eq]
      exact ⟨hstake.records, hstake.held, hstake.yield_nonneg, hread.1⟩

/-- `resolve_round` adds a yield that is not negative. -/
theorem Staked.resolve (h : Staked arena adapter w) (hw : WellFormed w)
    (he : Effect (adapterEnv arena adapter sha256 rate) auths w .resolveRound w') :
    Staked arena adapter w' := by
  cases he with
  | administered hadm => cases hadm
  | @roundResolved config _ hguard hc ha hp hs hstart hnow =>
    obtain ⟨bps, eliminated, events, heq⟩ := @settleRound_eq RwaState
      (adapterEnv arena adapter sha256 rate) w config hw.nodup
    rw [heq]
    refine ⟨fun hnone => ?_, fun config' hc' hv hu => ?_⟩
    · cases hnone
    · cases hc'
      have hvault : config.yieldVault = adapter := hv
      have hstake := h.unpaid config hc hvault (.inr (.inl ⟨config, hc, hs⟩))
      have hstakes := stakes_nonneg hw hc
      have hread := @Records.balanceOf_bounds _ _ _ _ w.now hstake.records hstakes
      have hround := @Stake.roundYield_nonneg _ _ sha256 rate _ _ hstake hvault hstakes
      rw [roundReading_eq hvault]
      exact ⟨hstake.records, hstake.held, satAddI128_nonneg hstake.yield_nonneg hround, hread.1⟩

theorem Staked.effect (h : Staked arena adapter w) (hne : arena ≠ adapter) (hw : WellFormed w)
    (hpay : Payouts w) (hauths : ∀ a ∈ auths, a ≠ arena ∧ a ≠ adapter)
    (he : Effect (adapterEnv arena adapter sha256 rate) auths w c w') :
    Staked arena adapter w' := by
  cases he with
  | @initialized args balance outside ha hnone hfee hlim hbal =>
    refine ⟨fun hnone => ?_, fun config hc hv hu => ?_⟩
    · cases hnone
    · cases hc
      have hvault : args.yieldVault = adapter := hv
      have hzero : args.config.stakes = 0 := mul_zero _
      change (if args.yieldVault = adapter then _ else none) = some (balance, outside) at hbal
      rw [if_pos hvault] at hbal
      cases hbal
      refine ⟨?_, ?_, le_rfl, le_rfl⟩
      · rw [hzero]
        exact h.blank hnone
      · rw [hzero]
        exact (w.outside.tokens _).nonneg arena
  | administered hadm hc hc' hlim hadmin =>
    exact h.frame hc hc' rfl rfl rfl rfl rfl rfl rfl rfl
  | joined hguard ha hc hp hs hne' hban hnone hmax htr hdep =>
    exact h.join hne hw hauths (.joined hguard ha hc hp hs hne' hban hnone hmax htr hdep)
  | committed ha hc hp hs hnow hpl hpa => exact h.frame hc hc rfl rfl rfl rfl rfl rfl rfl rfl
  | revealed ha hc hp hpl hpa hchoice hnow hopen =>
    exact h.frame hc hc rfl rfl rfl rfl rfl rfl rfl rfl
  | roundStarted hc ha hp hs hmin => exact h.startRound hw (.roundStarted hc ha hp hs hmin)
  | roundResolved hguard hc ha hp hs hstart hnow =>
    exact h.resolve hw (.roundResolved hguard hc ha hp hs hstart hnow)
  | cancelled hguard hc ha hp hs hwd => exact .of_paid rfl (not_unpaid rfl (.inr (.inl rfl)))
  | expired hguard hc hp hs hnow hwd hpayEach =>
    have hwin : w.storage.winner = none := (hpay.undecided (.inr ⟨_, hc, hs⟩)).2.2
    exact .of_paid rfl (not_unpaid rfl (.inr (.inr ⟨rfl, hwin⟩)))
  | claimed hguard ha hc hp hs hclaimed hwin hwd htotal htr =>
    exact .of_paid rfl (not_unpaid rfl (.inl rfl))
  | forceCancelled hguard hc ha hs => exact .of_paid rfl (not_unpaid rfl (.inr (.inl rfl)))
  | forceCancelledAgain hguard hc ha hs => exact .of_paid hc (not_unpaid hc (.inr (.inl hs)))
  | refunded ha hc hs href hpl htr => exact .of_paid hc (not_unpaid hc (.inr (.inl hs)))

theorem Staked.step (h : Staked arena adapter w) (hne : arena ≠ adapter) (hw : WellFormed w)
    (hpay : Payouts w) (hs : Step (adapterEnv arena adapter sha256 rate) w a w') :
    Staked arena adapter w' := by
  cases hs with
  | call hauths hexec => exact h.effect hne hw hpay hauths (exec_effect hexec)
  | external he =>
    refine ⟨fun hnone => ((h.blank hnone).external he).1, fun config hc hv hu => ?_⟩
    have hstake := h.unpaid config hc hv hu
    obtain ⟨hrec, hbal⟩ := hstake.records.external he
    exact ⟨hrec, hstake.held.trans (hbal _), hstake.yield_nonneg, hstake.baseline_nonneg⟩
  | tick _ _ =>
    refine ⟨h.blank, fun config hc hv hu => ?_⟩
    have hstake := h.unpaid config hc hv hu
    exact ⟨hstake.records, hstake.held, hstake.yield_nonneg, hstake.baseline_nonneg⟩

end Steps

variable {arena adapter : Address} {sha256 : List UInt8 → BytesN 32}
  {rate : ℕ → Address → RwaState → Option ℕ} {tokens : Tokens} {now : ℕ}
  {tr : List (World RwaState × Action RwaState)} {w w' : World RwaState}
  {auths : List Address} {winner : Address} {config : ArenaConfig}

/-- In every run that begins with both contracts freshly deployed, and with no
    tokens at the adapter. -/
theorem staked_of_run (hne : arena ≠ adapter) (hempty : ∀ t, tokens.balance t adapter = 0)
    (hrun : Run (Step (adapterEnv arena adapter sha256 rate))
      (World.fresh ⟨.fresh, tokens⟩ now) tr w) : Staked arena adapter w := by
  refine hrun.history (I := fun _ w => Staked arena adapter w) ?_ fun tr t a u hr h hs => ?_
  · refine ⟨fun _ => ⟨hempty, rfl, fun hzero => absurd rfl hzero⟩, fun _ hc => ?_⟩
    cases hc
  · obtain ⟨⟨hw, hpay⟩, -⟩ := run_of_fresh hr
    exact h.step hne hw hpay hs

/-- What a claim pays: the payout if the adapter's yield computation overflows,
    and otherwise nothing. -/
theorem Staked.claim (h : Staked arena adapter w) (hw : WellFormed w) (hpay : Payouts w)
    (hc : w.storage.config = some config) (hv : config.yieldVault = adapter)
    (he : Effect (adapterEnv arena adapter sha256 rate) auths w (.claim winner) w') :
    0 < config.stakes ∧ config.stakes ≤ config.payout ∧
      w'.transfers = w.transfers ++ [⟨config.stakeToken, arena, winner,
        if i128Max < config.stakes * 500 then config.payout else 0⟩] := by
  cases he with
  | administered hadm => cases hadm
  | @claimed _ config₁ withdrawn total between outside hguard ha hc₁ hp hs hclaimed hwin hwd
      htotal htr =>
    obtain rfl := Option.some.inj (hc.symm.trans hc₁)
    have hstake := h.unpaid config hc hv (.inr (.inr ⟨⟨config, hc, hs⟩, by rw [hwin]; simp⟩))
    have hcount : 0 < config.playerCount := by
      rw [hw.count config hc]
      exact List.length_pos_of_mem (hpay.winner_mem hw hwin)
    have hpos : 0 < config.stakes := by
      have hfee := hw.fee config hc
      unfold ArenaConfig.stakes
      positivity
    have hprincipal : wrapI128 config.stakes = config.stakes := by
      apply wrapI128_of_mem
      · unfold i128Min
        omega
      · exact hstake.stakes_le
    have hpayout : config.stakes ≤ config.payout := by
      show config.stakes ≤ satAddI128 (wrapI128 config.stakes) config.cumulativeYield
      rw [hprincipal]
      exact le_satAddI128 hstake.stakes_le hstake.yield_nonneg
    refine ⟨hpos, hpayout, ?_⟩
    rw [hv] at hwd
    dsimp only
    split_ifs with hlarge
    · have hfails := @Records.withdrawAll_overflow _ _ sha256 rate _ _ w.now hstake.records hlarge
      change Option.getD ((adapterEnv arena adapter sha256 rate).withdrawAll w.now adapter arena
        w.outside) _ = _ at hwd
      rw [hfails] at hwd
      obtain ⟨rfl, rfl⟩ := Prod.mk.inj hwd
      rw [htotal, min_self]
      rfl
    · obtain ⟨h₁, hpaid⟩ := @Records.withdrawAll _ _ sha256 rate _ _ w.now hstake.records hpos
        (by omega)
      change Option.getD ((adapterEnv arena adapter sha256 rate).withdrawAll w.now adapter arena
        w.outside) _ = _ at hwd
      rw [hpaid] at hwd
      obtain ⟨rfl, rfl⟩ := Prod.mk.inj hwd
      rw [htotal, min_eq_right (by omega)]
      rfl

/-- In every run of the arena with the RWA adapter as its vault, in which nobody
    sends tokens to the adapter, a successful claim pays the winner at least the
    principal iff 500 times the principal overflows an `i128`. -/
theorem claim_pays_principal_iff (hne : arena ≠ adapter)
    (hempty : ∀ t, tokens.balance t adapter = 0)
    (hrun : Run (Step (adapterEnv arena adapter sha256 rate))
      (World.fresh ⟨.fresh, tokens⟩ now) tr w)
    (hc : w.storage.config = some config) (hv : config.yieldVault = adapter)
    (hstep : Step (adapterEnv arena adapter sha256 rate) w (.call auths (.claim winner)) w') :
    (∃ amount, w'.transfers = w.transfers ++ [⟨config.stakeToken, arena, winner, amount⟩] ∧
        config.entryFee * config.playerCount ≤ amount) ↔
      i128Max < config.entryFee * config.playerCount * 500 := by
  show (∃ amount, _ ∧ config.stakes ≤ amount) ↔ i128Max < config.stakes * 500
  obtain ⟨⟨hw, hpay⟩, -⟩ := run_of_fresh hrun
  cases hstep with
  | call hauths hexec =>
    obtain ⟨hpos, hpayout, htransfers⟩ :=
      (staked_of_run hne hempty hrun).claim hw hpay hc hv (exec_effect hexec)
    rw [htransfers]
    constructor
    · rintro ⟨amount, heq, hle⟩
      have hamount := congrArg Transfer.amount
        (List.singleton_inj.mp (List.append_cancel_left heq))
      by_contra hsmall
      rw [if_neg hsmall] at hamount
      dsimp only at hamount
      omega
    · intro hlarge
      rw [if_pos hlarge]
      exact ⟨_, rfl, hpayout⟩

/-! ## Sample games -/

/-- Arena 0 and adapter 2; the oracle always answers 500. -/
def sampleEnv : Env RwaState := adapterEnv ⟨0⟩ ⟨2⟩ sha256OfZeroSalt fun _ _ _ => some 500

/-- Players 11 and 12 hold `x` of every token, nobody else holds any. -/
def sampleTokens (x : ℤ) : Tokens := fun _ => Ledger.empty.mintAll [(⟨11⟩, x), (⟨12⟩, x)]

instance : DecidablePred sampleEnv.mayAuthorize :=
  fun a => inferInstanceAs (Decidable (a ≠ ⟨0⟩ ∧ a ≠ ⟨2⟩))

/-- Account 10 initializes the adapter for token 1. -/
def Change.initializeAdapter : Change sampleEnv where
  apply h := (RwaAdapter.initializeAdapter [⟨10⟩] ⟨10⟩ ⟨1⟩ h).toOption
  evolves ha := ⟨.initializeAdapter [⟨10⟩] ⟨10⟩ ⟨1⟩, by
    show (⟨0⟩ : Address) ∉ [⟨10⟩]
    decide, .initializeAdapter (Fallible.toOption_eq_some.mp ha)⟩

/-- With entry fees of `2 ^ 125` the winner gets at least the principal. -/
theorem claim_pays_principal_iff_game : ∃ tr w w' amount,
    Run (Step sampleEnv) (World.fresh ⟨.fresh, sampleTokens (2 ^ 125)⟩ 0) tr w ∧
      Step sampleEnv w (.call [⟨11⟩] (.claim ⟨11⟩)) w' ∧
      w'.transfers = w.transfers ++ [⟨⟨1⟩, ⟨0⟩, ⟨11⟩, amount⟩] ∧ 2 ^ 126 ≤ amount := by
  obtain ⟨tr, w, w', hrun, hstep, config, hc, hv, htoken, hfee, hcount⟩ : ∃ tr w w',
      Run (Step sampleEnv) (World.fresh ⟨.fresh, sampleTokens (2 ^ 125)⟩ 0) tr w ∧
        Step sampleEnv w (.call [⟨11⟩] (.claim ⟨11⟩)) w' ∧ ∃ config ∈ w.storage.config,
          config.yieldVault = ⟨2⟩ ∧ config.stakeToken = ⟨1⟩ ∧ config.entryFee = 2 ^ 125 ∧
          config.playerCount = 2 :=
    exists_run_call (.outside Change.initializeAdapter ::
      (sampleGame (2 ^ 125) ++ [.call [⟨10⟩] .resolveRound])) [⟨11⟩] (.claim ⟨11⟩)
      (by decide +kernel)
  have hempty : ∀ t, (sampleTokens (2 ^ 125)).balance t ⟨2⟩ = 0 := by
    intro t
    show (Ledger.empty.mintAll [(⟨11⟩, 2 ^ 125), (⟨12⟩, 2 ^ 125)]).balance ⟨2⟩ = 0
    decide +kernel
  obtain ⟨amount, htransfers, hle⟩ :=
    (claim_pays_principal_iff (by decide) hempty hrun hc hv hstep).mpr (by
      rw [hfee, hcount]
      decide)
  rw [htoken] at htransfers
  rw [hfee, hcount] at hle
  exact ⟨tr, w, w', amount, hrun, hstep, htransfers, hle⟩

/-- With entry fees of 100 the winner gets nothing: the principal of 200 stays
    in the settled arena. -/
theorem claim_pays_nothing : ∃ tr w w',
    Run (Step sampleEnv) (World.fresh ⟨.fresh, sampleTokens 100⟩ 0) tr w ∧
      Step sampleEnv w (.call [⟨11⟩] (.claim ⟨11⟩)) w' ∧
      w'.transfers = w.transfers ++ [⟨⟨1⟩, ⟨0⟩, ⟨11⟩, 0⟩] ∧ InState w' .Settled ∧
      w'.outside.tokens.balance ⟨1⟩ ⟨0⟩ = 200 :=
  exists_run_call (.outside Change.initializeAdapter ::
    (sampleGame 100 ++ [.call [⟨10⟩] .resolveRound])) [⟨11⟩] (.claim ⟨11⟩) (by decide +kernel)

end InverseArena.Composition
