import InverseArena.Arena.Payouts

/-!
# Where the stakes are

The money of an arena whose vault is honest, until its first payout: the
stakes are in the vault, together with what grew there, and the arena itself
holds only what it was given on the side. `cumulative_yield` counts the growth
during the rounds.

Results:
* `Custody`: with a reliable vault the position is exactly the stakes, the
  counted yield and the growth outside the rounds.
* `Custody.effect`, `custody_of_run`: this holds in every run.
* `idleGrowth_eq_zero`: that growth is zero iff every growth was in a round.
-/

namespace InverseArena.Arena

open MachineInt Transition

variable {H : Type}

/-- The stakes of all players, `entry_fee * player_count`. -/
def ArenaConfig.stakes (config : ArenaConfig) : ℤ := config.entryFee * config.playerCount

/-- The arena is configured with this token and this vault. -/
def ArenaConfig.Uses (config : ArenaConfig) (token vault : Address) : Prop :=
  config.stakeToken = token ∧ config.yieldVault = vault

/-- Nothing was paid out yet: the game goes on, or waits for the winner's claim. -/
def Unpaid (w : World H) : Prop :=
  InState w .Open ∨ InState w .Active ∨ InState w .Finished ∧ w.storage.winner ≠ none

theorem Unpaid.of_frame {w w' : World H} {config config' : ArenaConfig} (h : Unpaid w')
    (hc : w.storage.config = some config) (hc' : w'.storage.config = some config')
    (hstate : config'.state = config.state) (hwin : w'.storage.winner = w.storage.winner) :
    Unpaid w := by
  have hin : ∀ state, InState w' state → InState w state := by
    rintro state ⟨config'', hc'', hs⟩
    obtain rfl := Option.some.inj (hc'.symm.trans hc'')
    exact ⟨config, hc, hstate.symm.trans hs⟩
  rcases h with hs | hs | ⟨hs, hne⟩
  · exact .inl (hin _ hs)
  · exact .inr (.inl (hin _ hs))
  · exact .inr (.inr ⟨hin _ hs, by rw [← hwin]; exact hne⟩)

theorem not_unpaid {w : World H} {config : ArenaConfig} (hc : w.storage.config = some config)
    (hs : config.state = .Settled ∨ config.state = .Cancelled ∨
      config.state = .Finished ∧ w.storage.winner = none) : ¬ Unpaid w := by
  have hin : InState w config.state := ⟨config, hc, rfl⟩
  rintro (hu | hu | ⟨hu, hwin⟩)
  all_goals
    have hstate := hin.unique hu
    rw [hstate] at hs
    simp_all

theorem stakes_nonneg {w : World H} {config : ArenaConfig} (hw : WellFormed w)
    (hc : w.storage.config = some config) : 0 ≤ config.stakes := by
  have hfee := hw.fee config hc
  unfold ArenaConfig.stakes
  positivity

/-- One more player brings one more fee. -/
theorem stakes_join {w : World H} {config : ArenaConfig} (hw : WellFormed w)
    (hc : w.storage.config = some config) (player : Address) :
    config.entryFee * ((w.storage.loadAllPlayers ++ [player]).length : ℕ) =
      config.stakes + config.entryFee := by
  unfold ArenaConfig.stakes
  rw [hw.count config hc, List.length_append]
  push_cast
  rw [List.length_singleton, mul_add]
  simp

namespace HonestVault

variable {env : Env H} {token vault : Address} (V : HonestVault env token vault)

/-- What the position grows by in a step outside the arena. -/
def growth (e : World H × Action H) : ℤ :=
  match e.2 with
  | .external h => V.position h - V.position e.1.outside
  | _ => 0

/-- What the arena is given in such a step. -/
def donation (e : World H × Action H) : ℤ :=
  match e.2 with
  | .external h => V.balance h env.here - V.balance e.1.outside env.here
  | _ => 0

/-- What the arena had at the start or was given later. -/
def donated (start : H) (tr : List (World H × Action H)) : ℤ :=
  V.balance start env.here + (tr.map V.donation).sum

/-- What the position had at the start, or grew by while no round was played. -/
def idleGrowth (start : H) (tr : List (World H × Action H)) : ℤ :=
  V.position start + ((tr.filter fun e => ¬ InState e.1 .Active).map V.growth).sum

section Ghosts

variable {V} {start : H} {tr : List (World H × Action H)} {w : World H} {a : Action H}

theorem donated_cons : V.donated start ((w, a) :: tr) = V.donated start tr + V.donation (w, a) := by
  unfold donated
  rw [List.map_cons, List.sum_cons]
  omega

theorem idleGrowth_cons : V.idleGrowth start ((w, a) :: tr) =
    V.idleGrowth start tr + if InState w .Active then 0 else V.growth (w, a) := by
  unfold idleGrowth
  rw [List.filter_cons]
  split_ifs with h1 h2 h2
  · simp [h2] at h1
  · rw [List.map_cons, List.sum_cons]
    omega
  · omega
  · simp [h2] at h1

/-- A call neither gives nor grows anything. -/
@[simp] theorem donated_call {auths : List Address} {c : Call} :
    V.donated start ((w, .call auths c) :: tr) = V.donated start tr := by
  rw [donated_cons]
  exact add_zero _

@[simp] theorem idleGrowth_call {auths : List Address} {c : Call} :
    V.idleGrowth start ((w, .call auths c) :: tr) = V.idleGrowth start tr := by
  rw [idleGrowth_cons, show V.growth (w, .call auths c) = 0 from rfl, ite_self]
  exact add_zero _

@[simp] theorem donated_tick {time : ℕ} :
    V.donated start ((w, .tick time) :: tr) = V.donated start tr := by
  rw [donated_cons]
  exact add_zero _

@[simp] theorem idleGrowth_tick {time : ℕ} :
    V.idleGrowth start ((w, .tick time) :: tr) = V.idleGrowth start tr := by
  rw [idleGrowth_cons, show V.growth (w, .tick time) = 0 from rfl, ite_self]
  exact add_zero _

theorem growth_nonneg {w' : World H} (hs : Step env w a w') : 0 ≤ V.growth (w, a) := by
  cases hs with
  | call _ _ => exact le_rfl
  | external he =>
    have hle := (V.evolves_spec he).1
    show 0 ≤ V.position _ - V.position w.outside
    omega
  | tick _ _ => exact le_rfl

theorem idleGrowth_nonneg {w₀ : World H} (hrun : Run (Step env) w₀ tr w) :
    0 ≤ V.idleGrowth start tr := by
  induction hrun with
  | nil =>
    have hpos := V.position_nonneg start
    show 0 ≤ V.position start + 0
    omega
  | snoc _ hs ih =>
    have hgrow := V.growth_nonneg hs
    rw [idleGrowth_cons]
    split_ifs <;> omega

theorem donated_nonneg {w₀ : World H} (hrun : Run (Step env) w₀ tr w) :
    0 ≤ V.donated start tr := by
  induction hrun with
  | nil =>
    have hbal := V.balance_nonneg start
    show 0 ≤ V.balance start env.here + 0
    omega
  | @snoc tr t a u hr hs ih =>
    rw [donated_cons]
    cases hs with
    | call _ _ => exact add_nonneg ih le_rfl
    | external he => exact add_nonneg ih (sub_nonneg.mpr (V.evolves_spec he).2)
    | tick _ _ => exact add_nonneg ih le_rfl

/-- The position grew in rounds only. -/
theorem idleGrowth_eq_zero {w₀ : World H} (hrun : Run (Step env) w₀ tr w) :
    V.idleGrowth start tr = 0 ↔ V.position start = 0 ∧
      ∀ e ∈ tr, V.growth e ≠ 0 → InState e.1 .Active := by
  induction hrun with
  | nil =>
    show V.position start + 0 = 0 ↔ _
    simp
  | @snoc tr t a u hr hs ih =>
    have hgrow := V.growth_nonneg hs
    have hidle : 0 ≤ V.idleGrowth start tr := idleGrowth_nonneg hr
    rw [idleGrowth_cons, List.forall_mem_cons]
    split_ifs with hact
    · rw [add_zero, ih]
      exact ⟨fun h => ⟨h.1, fun _ => hact, h.2⟩, fun h => ⟨h.1, h.2.2⟩⟩
    · constructor
      · intro hzero
        obtain ⟨hstart, hrest⟩ := ih.mp (by omega)
        exact ⟨hstart, fun hne => absurd (by omega) hne, hrest⟩
      · rintro ⟨hstart, hnow, hrest⟩
        have hbefore := ih.mpr ⟨hstart, hrest⟩
        have hnone : V.growth (t, a) = 0 := by_contra fun hne => hact (hnow hne)
        omega

end Ghosts

/-- The money of an arena before its first payout, in a run that began with
    the surroundings `start`. -/
structure Custody (start : H) (tr : List (World H × Action H)) (w : World H) : Prop where
  blank : w.storage.config = none → V.balance w.outside env.here = V.donated start tr ∧
    V.position w.outside = V.idleGrowth start tr
  held : ∀ config, w.storage.config = some config → config.Uses token vault → Unpaid w →
    V.balance w.outside env.here = V.donated start tr ∧ config.stakes ≤ V.position w.outside
  counted : V.Reliable → ∀ config, w.storage.config = some config → config.Uses token vault →
    Unpaid w →
    0 ≤ config.cumulativeYield ∧
    (config.state = .Active → config.stakes + config.cumulativeYield + V.idleGrowth start tr =
      w.storage.loadLastVaultBalance ∧ w.storage.loadLastVaultBalance ≤ V.position w.outside) ∧
    (config.state ≠ .Active → config.stakes + config.cumulativeYield + V.idleGrowth start tr =
      V.position w.outside)

section Steps

variable {V} {start : H} {tr : List (World H × Action H)} {w w' : World H} {a : Action H}
  {auths : List Address} {c : Call} {config config' : ArenaConfig}

/-- A call that leaves money and accounts as they are. -/
theorem Custody.frame (h : V.Custody start tr w) (hc : w.storage.config = some config)
    (hc' : w'.storage.config = some config')
    (hserves : config'.Uses token vault → config.Uses token vault)
    (hstakes : config'.stakes = config.stakes)
    (hyield : config'.cumulativeYield = config.cumulativeYield)
    (hstate : config'.state = config.state) (hwin : w'.storage.winner = w.storage.winner)
    (hlast : w'.storage.lastVaultBalance = w.storage.lastVaultBalance)
    (hsame : V.Same w.outside w'.outside) :
    V.Custody start ((w, .call auths c) :: tr) w' := by
  have hunpaid : Unpaid w' → Unpaid w := fun hu => hu.of_frame hc hc' hstate hwin
  have hload : w'.storage.loadLastVaultBalance = w.storage.loadLastVaultBalance := by
    unfold ArenaStorage.loadLastVaultBalance
    rw [hlast]
  refine ⟨fun hnone => ?_, fun config'' hc'' hv hu => ?_, fun hrel config'' hc'' hv hu => ?_⟩
  · rw [hc'] at hnone
    cases hnone
  · obtain rfl := Option.some.inj (hc'.symm.trans hc'')
    rw [hsame.1, hsame.2, hstakes, donated_call]
    exact h.held config hc (hserves hv) (hunpaid hu)
  · obtain rfl := Option.some.inj (hc'.symm.trans hc'')
    rw [hsame.1, hstakes, hyield, hstate, hload, idleGrowth_call]
    exact h.counted hrel config hc (hserves hv) (hunpaid hu)

/-- After a payout nothing is claimed here. -/
theorem Custody.of_paid (hc' : w'.storage.config = some config') (hpaid : ¬ Unpaid w') :
    V.Custody start tr w' where
  blank := fun hnone => by rw [hc'] at hnone; cases hnone
  held := fun _ _ _ hu => absurd hu hpaid
  counted := fun _ _ _ _ hu => absurd hu hpaid

/-- A join adds the fee to the stakes and to the position. -/
theorem Custody.join (h : V.Custody start tr w) (hw : WellFormed w)
    (hauths : ∀ a ∈ auths, env.mayAuthorize a) {player : Address}
    (he : Effect env auths w (.joinArena player) w') :
    V.Custody start ((w, .call auths (.joinArena player)) :: tr) w' := by
  cases he with
  | administered hadm => cases hadm
  | @joined _ config paid outside hguard ha hc hp hs hne hban hnone hmax htr hdep =>
    have hother := V.ne_here hauths ha
    have hopen : Unpaid w := .inl ⟨config, hc, hs⟩
    have hstakes := stakes_join hw hc player
    have hmoney : config.Uses token vault →
        V.position outside = V.position w.outside + config.entryFee ∧
        V.balance outside env.here = V.balance w.outside env.here := by
      rintro ⟨htoken, hvault⟩
      rw [htoken] at htr
      rw [hvault] at hdep
      obtain ⟨hpos, -, hin⟩ := V.transfer_spec htr
      obtain ⟨hpos', hout⟩ := V.deposit_spec hdep
      have hbal := hin hother rfl
      constructor <;> omega
    refine ⟨fun hnone => ?_, fun config' hc' hv hu => ?_, fun hrel config' hc' hv hu => ?_⟩
    · cases hnone
    · cases hc'
      obtain ⟨hbal, hle⟩ := h.held config hc hv hopen
      obtain ⟨hpos, hbal'⟩ := hmoney hv
      rw [donated_call]
      refine ⟨hbal'.trans hbal, ?_⟩
      show config.entryFee * _ ≤ V.position outside
      rw [hstakes]
      omega
    · cases hc'
      obtain ⟨hyield, -, heq⟩ := h.counted hrel config hc hv hopen
      have hbefore := heq (by rw [hs]; simp)
      obtain ⟨hpos, -⟩ := hmoney hv
      refine ⟨hyield, fun hactive => ?_, fun _ => ?_⟩
      · dsimp only at hactive
        rw [hs] at hactive
        cases hactive
      · rw [idleGrowth_call]
        show config.entryFee * _ + config.cumulativeYield + _ = V.position outside
        rw [hstakes]
        omega

/-- `start_round` takes the position as the baseline. -/
theorem Custody.startRound (h : V.Custody start tr w) {d : ℕ}
    (he : Effect env auths w (.startRound d) w') :
    V.Custody start ((w, .call auths (.startRound d)) :: tr) w' := by
  cases he with
  | administered hadm => cases hadm
  | @roundStarted _ config hc ha hp hs hmin =>
    have hopen : Unpaid w := .inl ⟨config, hc, hs⟩
    have hread := V.vaultBalanceOr_spec w.now 0 w.outside
    refine ⟨fun hnone => ?_, fun config' hc' hv hu => ?_, fun hrel config' hc' hv hu => ?_⟩
    · cases hnone
    · cases hc'
      have hheld := h.held config hc hv hopen
      rw [donated_call]
      dsimp only
      rw [hv.2, hread.1.1, hread.1.2]
      exact hheld
    · cases hc'
      obtain ⟨hyield, -, heq⟩ := h.counted hrel config hc hv hopen
      have hbefore := heq (by rw [hs]; simp)
      refine ⟨hyield, fun _ => ?_, fun hne => absurd rfl hne⟩
      rw [idleGrowth_call]
      dsimp only [ArenaStorage.loadLastVaultBalance, Option.getD_some]
      rw [hv.2, hread.2 hrel, hread.1.1]
      exact ⟨hbefore, le_rfl⟩

/-- `resolve_round` counts the growth since the baseline as yield. -/
theorem Custody.resolve (h : V.Custody start tr w) (hw : WellFormed w)
    (hidle : 0 ≤ V.idleGrowth start tr) (he : Effect env auths w .resolveRound w') :
    V.Custody start ((w, .call auths .resolveRound) :: tr) w' := by
  cases he with
  | administered hadm => cases hadm
  | @roundResolved config _ hguard hc ha hp hs hstart hnow =>
    have hactive : Unpaid w := .inr (.inl ⟨config, hc, hs⟩)
    obtain ⟨bps, eliminated, events, heq⟩ := @settleRound_eq H env w config hw.nodup
    rw [heq]
    refine ⟨fun hnone => ?_, fun config' hc' hv hu => ?_, fun hrel config' hc' hv hu => ?_⟩
    · cases hnone
    · cases hc'
      have hvault : config.yieldVault = vault := hv.2
      have hread := V.roundReading_spec w hvault
      have hheld := h.held config hc hv hactive
      rw [donated_call]
      dsimp only
      rw [hread.1.1, hread.1.2]
      exact hheld
    · cases hc'
      have hvault : config.yieldVault = vault := hv.2
      have hread := V.roundReading_spec w hvault
      obtain ⟨hyield, hbase, -⟩ := h.counted hrel config hc hv hactive
      obtain ⟨hbase, hle⟩ := hbase hs
      have hstakes := stakes_nonneg hw hc
      have hsupply := V.supply w.outside
      have hbal := V.balance_nonneg w.outside
      -- the growth in the round, which fits into an i128
      have hround : roundYield env config w =
          V.position w.outside - w.storage.loadLastVaultBalance := by
        unfold roundYield
        rw [hread.2 hrel, if_pos hle, wrapI128_of_mem]
        · unfold i128Min
          omega
        · omega
      have hsum : satAddI128 config.cumulativeYield (V.position w.outside -
          w.storage.loadLastVaultBalance) =
            config.cumulativeYield + (V.position w.outside - w.storage.loadLastVaultBalance) := by
        apply satAddI128_of_mem
        · unfold i128Min
          omega
        · omega
      dsimp only
      rw [hround, hsum, idleGrowth_call, hread.1.1]
      refine ⟨by omega, fun hact => ?_, fun _ => ?_⟩
      · split_ifs at hact
      · show config.stakes + _ + _ = V.position w.outside
        omega

/-- `initialize` finds what was there before the first stake. -/
theorem Custody.opened (h : V.Custody start tr w)
    {args : InitializeArgs} (he : Effect env auths w (.initializeArena args) w') :
    V.Custody start ((w, .call auths (.initializeArena args)) :: tr) w' := by
  cases he with
  | administered hadm => cases hadm
  | initialized ha hnone hfee hlim hbalance =>
    obtain ⟨hbal, hpos⟩ := h.blank hnone
    have hzero : args.config.stakes = 0 := mul_zero _
    refine ⟨fun hnone => ?_, fun config hc hv hu => ?_, fun hrel config hc hv hu => ?_⟩
    · cases hnone
    · cases hc
      have hvault : args.yieldVault = vault := hv.2
      rw [hvault] at hbalance
      obtain ⟨-, hpos', hbal'⟩ := V.balanceOf_spec hbalance
      rw [donated_call]
      dsimp only
      rw [hzero, hpos', hbal']
      exact ⟨hbal, V.position_nonneg _⟩
    · cases hc
      have hvault : args.yieldVault = vault := hv.2
      rw [hvault] at hbalance
      obtain ⟨-, hpos', -⟩ := V.balanceOf_spec hbalance
      refine ⟨le_rfl, fun hactive => ?_, fun _ => ?_⟩
      · cases hactive
      · rw [idleGrowth_call, hzero]
        dsimp only
        rw [hpos', hpos]
        show 0 + 0 + _ = _
        omega

theorem Custody.effect (h : V.Custody start tr w) (hw : WellFormed w) (hpay : Payouts w)
    (hidle : 0 ≤ V.idleGrowth start tr) (hauths : ∀ a ∈ auths, env.mayAuthorize a)
    (he : Effect env auths w c w') : V.Custody start ((w, .call auths c) :: tr) w' := by
  cases he with
  | initialized ha hnone hfee hlim hbal =>
    exact h.opened (.initialized ha hnone hfee hlim hbal)
  | administered hadm hc hc' hlim hadmin =>
    exact h.frame hc hc' id rfl rfl rfl rfl rfl (V.same_refl _)
  | joined hguard ha hc hp hs hne hban hnone hmax htr hdep =>
    exact h.join hw hauths (.joined hguard ha hc hp hs hne hban hnone hmax htr hdep)
  | committed ha hc hp hs hnow hpl hpa =>
    exact h.frame hc hc id rfl rfl rfl rfl rfl (V.same_refl _)
  | revealed ha hc hp hpl hpa hchoice hnow hopen =>
    exact h.frame hc hc id rfl rfl rfl rfl rfl (V.same_refl _)
  | roundStarted hc ha hp hs hmin => exact h.startRound (.roundStarted hc ha hp hs hmin)
  | roundResolved hguard hc ha hp hs hstart hnow =>
    exact h.resolve hw hidle (.roundResolved hguard hc ha hp hs hstart hnow)
  | cancelled hguard hc ha hp hs hwd => exact .of_paid rfl (not_unpaid rfl (.inr (.inl rfl)))
  | expired hguard hc hp hs hnow hwd hpayEach =>
    have hwin : w.storage.winner = none := (hpay.undecided (.inr ⟨_, hc, hs⟩)).2.2
    exact .of_paid rfl (not_unpaid rfl (.inr (.inr ⟨rfl, hwin⟩)))
  | claimed hguard ha hc hp hs hclaimed hwin hwd htotal htr =>
    exact .of_paid rfl (not_unpaid rfl (.inl rfl))
  | forceCancelled hguard hc ha hs => exact .of_paid rfl (not_unpaid rfl (.inr (.inl rfl)))
  | forceCancelledAgain hguard hc ha hs => exact .of_paid hc (not_unpaid hc (.inr (.inl hs)))
  | refunded ha hc hs href hpl htr => exact .of_paid hc (not_unpaid hc (.inr (.inl hs)))

/-- Growth of the position counts as idle outside the rounds. -/
theorem Custody.external (h : V.Custody start tr w) {outside : H}
    (he : env.evolves w.now w.outside outside) :
    V.Custody start ((w, .external outside) :: tr) { w with outside := outside } := by
  obtain ⟨hpos, hbal⟩ := V.evolves_spec he
  have hgrow : V.growth (w, .external outside) = V.position outside - V.position w.outside := rfl
  have hgive : V.donation (w, .external outside) =
      V.balance outside env.here - V.balance w.outside env.here := rfl
  refine ⟨fun hnone => ?_, fun config hc hv hu => ?_, fun hrel config hc hv hu => ?_⟩
  · obtain ⟨hbal', hpos'⟩ := h.blank hnone
    have hidle : ¬ InState w .Active := by
      rintro ⟨config, hc, -⟩
      rw [show w.storage.config = none from hnone] at hc
      cases hc
    rw [donated_cons, idleGrowth_cons, if_neg hidle, hgrow, hgive]
    dsimp only
    constructor <;> omega
  · obtain ⟨hbal', hle⟩ := h.held config hc hv hu
    rw [donated_cons, hgive]
    dsimp only
    constructor <;> omega
  · obtain ⟨hyield, hactive, hidle⟩ := h.counted hrel config hc hv hu
    rw [idleGrowth_cons, hgrow]
    refine ⟨hyield, fun hs => ?_, fun hs => ?_⟩
    · obtain ⟨heq, hle⟩ := hactive hs
      rw [if_pos ⟨config, hc, hs⟩, add_zero]
      exact ⟨heq, hle.trans hpos⟩
    · have heq := hidle hs
      rw [if_neg]
      · dsimp only
        omega
      · rintro ⟨config', hc', hs'⟩
        obtain rfl := Option.some.inj (hc.symm.trans hc')
        exact hs hs'

end Steps

/-- In every run. -/
theorem custody_of_run {start : H} {now : ℕ} {tr : List (World H × Action H)} {w : World H}
    (hrun : Run (Step env) (World.fresh start now) tr w) : V.Custody start tr w := by
  refine hrun.history ?_ fun tr t a u hr h hs => ?_
  · refine ⟨fun _ => ⟨?_, ?_⟩, fun _ hc => ?_, fun _ _ hc => ?_⟩
    · show V.balance start env.here = V.balance start env.here + 0
      omega
    · show V.position start = V.position start + 0
      omega
    · cases hc
    · cases hc
  · obtain ⟨⟨hw, hpay⟩, -⟩ := run_of_fresh hr
    cases hs with
    | call hauths hexec =>
      exact h.effect hw hpay (idleGrowth_nonneg hr) hauths (exec_effect hexec)
    | external he => exact h.external he
    | tick hle hmax =>
      refine ⟨?_, ?_, ?_⟩
      · rw [donated_tick, idleGrowth_tick]
        exact h.blank
      · rw [donated_tick]
        exact h.held
      · rw [idleGrowth_tick]
        exact h.counted

end HonestVault

end InverseArena.Arena
