import InverseArena.Arena.Survivors
import InverseArena.Vault.Refunds
import InverseArena.Vault.WinnerTakesAll

/-!
# Is any money locked at the end?

An ended arena is left through `claim` (only with a stored winner) and
`claim_refund` (only if cancelled), and each pays what was staked or counted;
`expire_arena` refunds active players only (`contract/arena/src/lib.rs`, lines
449-484, 706-722 and 860-919).

Results:
* `Cleared.step`: under `Harmless`, the vault of an ended arena is empty, and
  the arena holds the refunds to come and what it was given on the side.
* `no_funds_locked`: so everything else can be paid to players.
* `nobody_revealed_locks`: after a round in which nobody revealed, nothing can.
-/

namespace InverseArena.Arena

open Host MachineInt Transition

variable {H : Type}

/-- A claim, a refund or an administrative call. -/
def Action.settles : Action H → Bool
  | .call _ (.claim _) | .call _ (.claimRefund _) => true
  | .call _ .cancelArena | .call _ .forceCancelArena => true
  | .call _ c => c.isAdministrative
  | _ => false

/-- The arena's own transfers all went to players. -/
def PaysPlayers (env : Env H) (w : World H) : Prop :=
  ∀ x ∈ w.transfers, x.sender = env.here → x.recipient ∈ w.storage.loadAllPlayers

section Transfers

variable {env : Env H} {auths : List Address} {w w' : World H} {c : Call}

theorem PaysPlayers.frame (h : PaysPlayers env w) {l : List Transfer}
    (htransfers : w'.transfers = w.transfers ++ l)
    (hplayers : w'.storage.players = w.storage.players)
    (hl : ∀ x ∈ l, x.recipient ∈ w.storage.loadAllPlayers) : PaysPlayers env w' := by
  intro x hx hsender
  have hall : w'.storage.loadAllPlayers = w.storage.loadAllPlayers := by
    unfold ArenaStorage.loadAllPlayers
    rw [hplayers]
  rw [hall]
  rw [htransfers] at hx
  rcases List.mem_append.mp hx with hx | hx
  · exact h x hx hsender
  · exact hl x hx

theorem PaysPlayers.effect (h : PaysPlayers env w) (hw : WellFormed w) (hpay : Payouts w)
    (hauths : ∀ a ∈ auths, env.mayAuthorize a) (hhere : ¬ env.mayAuthorize env.here)
    (he : Effect env auths w c w') : PaysPlayers env w' := by
  cases he with
  | initialized ha hnone hfee hlim hbal => exact h
  | administered hadm hc hc' hlim hadmin => exact h
  | @joined player config paid outside hguard ha hc hp hs hne hban hnone hmax htr hdep =>
    intro x hx hsender
    show x.recipient ∈ w.storage.loadAllPlayers ++ [player]
    rcases List.mem_append.mp hx with hx | hx
    · exact List.mem_append_left _ (h x hx hsender)
    · rw [List.mem_singleton.mp hx] at hsender
      -- the join is paid by the player
      rw [show player = env.here from hsender] at ha
      exact absurd (hauths _ ha) hhere
  | committed ha hc hp hs hnow hpl hpa => exact h
  | revealed ha hc hp hpl hpa hchoice hnow hopen => exact h
  | roundStarted hc ha hp hs hmin => exact h
  | roundResolved hguard hc ha hp hs hstart hnow =>
    obtain ⟨bps, eliminated, events, heq⟩ := @settleRound_eq H env w _ hw.nodup
    rw [heq]
    exact h
  | cancelled hguard hc ha hp hs hwd => exact h
  | expired hguard hc hp hs hnow hwd hpayEach =>
    refine h.frame rfl rfl fun x hx => ?_
    obtain ⟨p, hp, rfl⟩ := List.mem_map.mp hx
    exact (List.mem_filter.mp hp).1
  | @claimed winner config _ _ _ _ hguard ha hc hp hs hclaimed hwin hwd htotal htr =>
    refine h.frame rfl rfl fun x hx => ?_
    rw [List.mem_singleton.mp hx]
    exact hpay.winner_mem hw hwin
  | forceCancelled hguard hc ha hs => exact h
  | forceCancelledAgain hguard hc ha hs => exact h
  | refunded ha hc hs href hpl htr =>
    refine h.frame rfl rfl fun x hx => ?_
    rw [List.mem_singleton.mp hx]
    exact (hw.known _).mp hpl

theorem paysPlayers_of_run {outside : H} {now : ℕ} {tr : List (World H × Action H)}
    (hhere : ¬ env.mayAuthorize env.here)
    (hrun : Run (Step env) (World.fresh outside now) tr w) : PaysPlayers env w := by
  refine hrun.history (I := fun _ w => PaysPlayers env w) (fun x hx => ?_)
    fun _ _ _ _ hr h hs => ?_
  · cases hx
  · obtain ⟨⟨hw, hpay⟩, -⟩ := run_of_fresh hr
    cases hs with
    | call hauths hexec => exact h.effect hw hpay hauths hhere (exec_effect hexec)
    | external _ => exact h
    | tick _ _ => exact h

end Transfers

namespace HonestVault

variable {env : Env H} {token vault : Address} (V : HonestVault env token vault)

/-- The steps after which no money is locked: the vault grows only while a
    round is played, somebody has revealed in a resolved round, and where the
    arena is cancelled or expires, the position is what the players staked
    (and nobody was eliminated before the expiry). -/
def Harmless (w : World H) : Action H → Prop
  | .external h => V.position h ≠ V.position w.outside → InState w .Active
  | .call _ .resolveRound => SomeoneRevealed w
  | .call _ .expireArena => ∀ config ∈ w.storage.config,
      V.position w.outside = config.stakes ∧
        ∀ p ∈ w.storage.loadAllPlayers, w.storage.isActive p = true
  | .call _ .cancelArena => ∀ config ∈ w.storage.config, V.position w.outside = config.stakes
  | .call _ .forceCancelArena => ∀ config ∈ w.storage.config, config.state ≠ .Cancelled →
      V.position w.outside = config.stakes
  | _ => True

instance (w : World H) (a : Action H) : Decidable (V.Harmless w a) :=
  match a with
  | .external _ => inferInstanceAs (Decidable (_ → _))
  | .call _ .resolveRound => inferInstanceAs (Decidable (SomeoneRevealed w))
  | .call _ .expireArena => inferInstanceAs (Decidable (∀ config ∈ _, _ ∧ ∀ p ∈ _, _ = true))
  | .call _ .cancelArena => inferInstanceAs (Decidable (∀ config ∈ _, _ = _))
  | .call _ .forceCancelArena => inferInstanceAs (Decidable (∀ config ∈ _, _ → _ = _))
  | .call _ (.initializeArena _) | .call _ (.proposeUpgrade _)
  | .call _ (.configurePlayerLimits _ _) | .call _ (.banPlayer _) | .call _ (.unbanPlayer _)
  | .call _ (.proposeAdmin _) | .call _ .acceptAdmin | .call _ (.changeAdmin _)
  | .call _ (.pause _) | .call _ .unpause | .call _ (.configureLeaderboardLimit _)
  | .call _ (.joinArena _) | .call _ (.submitCommitment _ _) | .call _ (.revealChoice _ _ _)
  | .call _ (.startRound _) | .call _ (.claim _) | .call _ (.claimRefund _)
  | .tick _ => isTrue trivial

/-- Everything but what the arena was given on the side was paid to players. -/
def NothingLocked (start : H) (tr : List (World H × Action H)) (w : World H) : Prop :=
  V.position w.outside = 0 ∧ V.balance w.outside env.here = V.donated start tr ∧
    PaysPlayers env w

/-- The refunds to come. -/
def owed (config : ArenaConfig) (s : ArenaStorage) : ℤ :=
  if config.state = .Cancelled then config.entryFee * s.unrefunded.length else 0

/-- The money of an arena that has paid out. -/
def Cleared (start : H) (tr : List (World H × Action H)) (w : World H) : Prop :=
  ∀ config, w.storage.config = some config → config.Uses token vault → ¬ Unpaid w →
    V.position w.outside = 0 ∧
      V.balance w.outside env.here = V.donated start tr + owed config w.storage

section Steps

variable {V} {start : H} {tr : List (World H × Action H)} {w w' : World H} {a : Action H}
  {auths : List Address} {c : Call} {config config' : ArenaConfig}

theorem Cleared.of_unpaid (h : Unpaid w') : V.Cleared start tr w' :=
  fun _ _ _ hnot => absurd h hnot

/-- A call that keeps money, refunds and state. -/
theorem Cleared.frame (h : V.Cleared start tr w) (hc : w.storage.config = some config)
    (hc' : w'.storage.config = some config')
    (huses : config'.Uses token vault → config.Uses token vault)
    (hstate : config'.state = config.state) (hfee : config'.entryFee = config.entryFee)
    (hwin : w'.storage.winner = w.storage.winner)
    (hplayers : w'.storage.players = w.storage.players)
    (hrefund : w'.storage.refundClaimed = w.storage.refundClaimed)
    (hout : w'.outside = w.outside) : V.Cleared start ((w, .call auths c) :: tr) w' := by
  intro config'' hc'' hv hnot
  obtain rfl := Option.some.inj (hc'.symm.trans hc'')
  have hnot' : ¬ Unpaid w := fun hu => hnot (hu.of_frame hc' hc hstate.symm hwin.symm)
  unfold owed
  rw [hout, hstate, hfee, unrefunded_congr hplayers hrefund, donated_call]
  exact h config hc (huses hv) hnot'

/-- The withdrawal of `cancel_arena` and `expire_arena` empties a position that
    is just the stakes. -/
theorem Custody.withdrawIfJoined (h : V.Custody start tr w) (hc : w.storage.config = some config)
    (hs : config.state = .Open ∨ config.state = .Active) (hv : config.Uses token vault)
    (hpos : V.position w.outside = config.stakes) {outside : H}
    (hwd : withdrawIfJoined env config w.now w.outside = some outside) :
    V.position outside = 0 ∧
      V.balance outside env.here = V.donated start tr + config.stakes := by
  have hunpaid : Unpaid w :=
    hs.imp (fun hs => ⟨config, hc, hs⟩) fun hs => .inl ⟨config, hc, hs⟩
  obtain ⟨hbal, -⟩ := h.held config hc hv hunpaid
  unfold Arena.withdrawIfJoined at hwd
  split_ifs at hwd with hcount
  · obtain ⟨⟨x, outside⟩, hr, rfl⟩ := Option.map_eq_some_iff.mp hwd
    rw [hv.2] at hr
    obtain ⟨-, hempty, hfull⟩ := V.withdrawAll_spec hr
    exact ⟨hempty, by show V.balance outside env.here = _; omega⟩
  · obtain rfl := Option.some.inj hwd
    have hzero : config.stakes = 0 := by
      unfold ArenaConfig.stakes
      rw [show config.playerCount = 0 by omega]
      exact mul_zero _
    exact ⟨by omega, by omega⟩

/-- A cancellation that brings all stakes into the arena. -/
theorem Cleared.of_cancel (hw : WellFormed w) (hpay : Payouts w)
    (hc : w.storage.config = some config) (hs : config.state = .Open ∨ config.state = .Active)
    (hc' : w'.storage.config = some { config with state := .Cancelled })
    (hplayers : w'.storage.players = w.storage.players)
    (hrefund : w'.storage.refundClaimed = w.storage.refundClaimed)
    (hmoney : config.Uses token vault → V.position w'.outside = 0 ∧
      V.balance w'.outside env.here = V.donated start tr + config.stakes) :
    V.Cleared start ((w, .call auths c) :: tr) w' := by
  intro config' hc'' hv _
  obtain rfl := Option.some.inj (hc'.symm.trans hc'')
  have hv' : config.Uses token vault := hv
  unfold owed
  rw [donated_call, if_pos rfl, fees_unrefunded hw hpay hc hs hplayers hrefund]
  exact hmoney hv'

theorem Cleared.effect (h : V.Cleared start tr w) (hcust : V.Custody start tr w)
    (hrel : V.Reliable) (hidle : V.idleGrowth start tr = 0) (hw : WellFormed w)
    (hpay : Payouts w) (hauth : Authorized env w) (hauths : ∀ a ∈ auths, env.mayAuthorize a)
    (hharm : V.Harmless w (.call auths c)) (he : Effect env auths w c w') :
    V.Cleared start ((w, .call auths c) :: tr) w' := by
  have hexec : c.isAdministrative = false → exec env auths c w = .ok w' :=
    fun hadm => exec_of_effect hadm he
  cases he with
  | initialized ha hnone hfee hlim hbal => exact .of_unpaid (.inl ⟨_, rfl, rfl⟩)
  | administered hadm hc hc' hlim hadmin =>
    exact h.frame hc hc' id rfl rfl rfl rfl rfl rfl
  | joined hguard ha hc hp hs hne hban hnone hmax htr hdep =>
    exact .of_unpaid (.inl ⟨_, rfl, hs⟩)
  | committed ha hc hp hs hnow hpl hpa => exact .of_unpaid (.inr (.inl ⟨_, hc, hs⟩))
  | revealed ha hc hp hpl hpa hchoice hnow hopen => exact h.frame hc hc id rfl rfl rfl rfl rfl rfl
  | roundStarted hc ha hp hs hmin => exact .of_unpaid (.inr (.inl ⟨_, rfl, rfl⟩))
  | roundResolved hguard hc ha hp hs hstart hnow =>
    obtain ⟨-, hwinner⟩ := (leavesSurvivor_iff hw (hexec rfl)).mpr hharm
    obtain ⟨config', hc', hstate⟩ := resolveRound_state hw (hexec rfl)
    refine .of_unpaid ?_
    rcases hstate with hstate | hstate
    · exact .inl ⟨config', hc', hstate⟩
    · obtain ⟨p, hp⟩ := hwinner ⟨config', hc', hstate⟩
      exact .inr (.inr ⟨⟨config', hc', hstate⟩, by rw [hp]; simp⟩)
  | @cancelled config outside hguard hc ha hp hs hwd =>
    exact .of_cancel hw hpay hc (.inl hs) rfl rfl rfl fun hv =>
      hcust.withdrawIfJoined hc (.inl hs) hv (hharm config hc) hwd
  | @expired config withdrawn outside hguard hc hp hs hnow hwd hpayEach =>
    intro config' hc' hv _
    cases hc'
    have hv' : config.Uses token vault := hv
    obtain ⟨hpos, hactive⟩ := hharm config hc
    obtain ⟨hempty, hfull⟩ := hcust.withdrawIfJoined hc (.inr hs) hv' hpos hwd
    have hall : w.storage.activePlayers = w.storage.loadAllPlayers :=
      List.filter_eq_self.mpr hactive
    rw [hall, hv'.1] at hpayEach
    have hother : ∀ p ∈ w.storage.loadAllPlayers, p ≠ env.here := by
      rintro p hp rfl
      exact V.unauthorized (hauth.players _ hp)
    obtain ⟨hpos', hpaid⟩ := payEach_spec hpayEach hother
    have hstakes : config.entryFee * (w.storage.loadAllPlayers.length : ℕ) = config.stakes := by
      rw [← hw.count config hc]
      rfl
    refine ⟨hpos'.trans hempty, ?_⟩
    unfold owed
    rw [donated_call, if_neg (by simp)]
    show V.balance outside env.here = _
    omega
  | @claimed winner config withdrawn total between outside hguard ha hc hp hs hclaimed hwin hwd
      htotal htr =>
    intro config' hc' hv _
    cases hc'
    have hv' : config.Uses token vault := hv
    obtain ⟨-, hempty, hbal⟩ := hcust.claim hrel hw hidle.ge hauths hc hv'
      (.claimed hguard ha hc hp hs hclaimed hwin hwd htotal htr)
    refine ⟨hempty, ?_⟩
    unfold owed
    rw [donated_call, if_neg (by simp), hbal, hidle]
  | @forceCancelled config hguard hc ha hs =>
    refine .of_cancel hw hpay hc hs rfl rfl rfl fun hv => ?_
    have hpos := hharm config hc (by rcases hs with hs | hs <;> rw [hs] <;> simp)
    have hunpaid : Unpaid w :=
      hs.imp (fun hs => ⟨config, hc, hs⟩) fun hs => .inl ⟨config, hc, hs⟩
    obtain ⟨hbal, -⟩ := hcust.held config hc hv hunpaid
    obtain ⟨⟨x, outside⟩, hr⟩ := hrel.withdraws w.now w.outside
    obtain ⟨-, hempty, hfull⟩ := V.withdrawAll_spec hr
    show V.position (Option.getD _ w.outside) = 0 ∧
      V.balance (Option.getD _ w.outside) env.here = _
    rw [hv.2, hr]
    exact ⟨hempty, by show V.balance outside env.here = _; omega⟩
  | forceCancelledAgain hguard hc ha hs => exact h.frame hc hc id rfl rfl rfl rfl rfl rfl
  | @refunded player config outside ha hc hs href hpl htr =>
    intro config' hc' hv hnot
    obtain rfl := Option.some.inj (hc.symm.trans hc')
    have hpaid : ¬ Unpaid w := not_unpaid hc (.inr (.inl hs))
    obtain ⟨hpos, hbal⟩ := h config hc hv hpaid
    have hother := V.ne_here hauths ha
    rw [hv.1] at htr
    obtain ⟨hpos', hout, -⟩ := V.transfer_spec htr
    obtain ⟨-, -, hless⟩ := hout rfl hother
    have hmem : player ∈ w.storage.unrefunded :=
      List.mem_filter.mpr ⟨(hw.known player).mp hpl, by rw [href]; rfl⟩
    have hlen := @length_unrefunded_refund w.storage
      { w.storage with
        refundClaimed := Function.update w.storage.refundClaimed player (some true) }
      hw.nodup player hmem rfl rfl
    refine ⟨hpos'.trans hpos, ?_⟩
    unfold owed at hbal ⊢
    rw [if_pos hs, ← hlen] at hbal
    push_cast at hbal
    rw [mul_add, mul_one] at hbal
    rw [if_pos hs, donated_call]
    show V.balance outside env.here = _
    dsimp only
    omega

theorem Cleared.step (h : V.Cleared start tr w) (hcust : V.Custody start tr w)
    (hrel : V.Reliable) (hidle : V.idleGrowth start tr = 0) (hw : WellFormed w)
    (hpay : Payouts w) (hauth : Authorized env w) (hharm : V.Harmless w a)
    (hs : Step env w a w') : V.Cleared start ((w, a) :: tr) w' := by
  cases hs with
  | call hauths hexec =>
    exact h.effect hcust hrel hidle hw hpay hauth hauths hharm (exec_effect hexec)
  | @external outside he =>
    intro config hc hv hnot
    have hidle' : ¬ InState w .Active := fun hs => hnot (.inr (.inl hs))
    have hsame : V.position outside = V.position w.outside :=
      by_contra fun hne => hidle' (hharm hne)
    obtain ⟨hpos, hbal⟩ := h config hc hv hnot
    have hgive : V.donation (w, .external outside) =
        V.balance outside env.here - V.balance w.outside env.here := rfl
    rw [donated_cons, hgive]
    dsimp only
    constructor <;> omega
  | tick _ _ =>
    intro config hc hv hnot
    rw [donated_tick]
    exact h config hc hv hnot

theorem idleGrowth_of_harmless {now : ℕ} (hrun : Run (Step env) (World.fresh start now) tr w)
    (hstart : V.position start = 0) (hharm : ∀ e ∈ tr, V.Harmless e.1 e.2) :
    V.idleGrowth start tr = 0 := by
  refine (idleGrowth_eq_zero hrun).mpr ⟨hstart, fun e he hgrow => ?_⟩
  have h := hharm e he
  obtain ⟨t, a⟩ := e
  cases a with
  | external outside =>
    refine h fun heq => hgrow ?_
    exact sub_eq_zero.mpr heq
  | call auths c => exact absurd rfl hgrow
  | tick time => exact absurd rfl hgrow

theorem cleared_of_run {now : ℕ} (hrel : V.Reliable)
    (hrun : Run (Step env) (World.fresh start now) tr w) (hstart : V.position start = 0)
    (hharm : ∀ e ∈ tr, V.Harmless e.1 e.2) : V.Cleared start tr w := by
  refine hrun.history (I := fun tr w => (∀ e ∈ tr, V.Harmless e.1 e.2) → V.Cleared start tr w)
    (fun _ config hc => ?_) (fun tr t a u hr ih hs hharm => ?_) hharm
  · cases hc
  · obtain ⟨⟨hw, hpay⟩, -⟩ := run_of_fresh hr
    have hbefore : ∀ e ∈ tr, V.Harmless e.1 e.2 := fun e he => hharm e (List.mem_cons_of_mem _ he)
    exact (ih hbefore).step (V.custody_of_run hr) hrel (idleGrowth_of_harmless hr hstart hbefore)
      hw hpay (authorized_of_run hr) (hharm _ List.mem_cons_self) hs

/-! ## How the money is paid -/

/-- The admin can lift a pause, which changes nothing else. -/
theorem exists_unpaused (hauth : Authorized env w) (hc : w.storage.config = some config) :
    ∃ tr' w', Run (Step env) w tr' w' ∧
      (∀ e ∈ tr', e.2.settles = true ∧ V.Harmless e.1 e.2) ∧
      w'.storage.config = some { config with paused := false } ∧
      w'.storage.winner = w.storage.winner := by
  have hauths : ∀ a ∈ [config.admin], env.mayAuthorize a := by
    intro a ha
    rw [List.mem_singleton.mp ha]
    exact hauth.admin config hc
  have hexec : ∃ w', exec env [config.admin] .unpause w = .ok w' ∧
      w'.storage.config = some { config with paused := false } ∧
      w'.storage.winner = w.storage.winner := by
    refine ⟨{ w with storage := w.storage.saveConfig { config with paused := false } }.publish
      (.unpaused config.admin), ?_, rfl, rfl⟩
    simp only [exec, unpause, ArenaStorage.loadConfig, Fallible.bind_eq_ok, okOr_eq_ok,
      requireAuth_eq_ok, Fallible.pure_eq_ok]
    exact ⟨config, hc, (), List.mem_singleton.mpr rfl, rfl⟩
  obtain ⟨w', hexec, hc', hwin⟩ := hexec
  refine ⟨_, w', Run.single (.call hauths hexec), fun e he => ?_, hc', hwin⟩
  rw [List.mem_singleton.mp he]
  exact ⟨rfl, trivial⟩

/-- The winner of a finished game can claim. -/
theorem exists_claim (hcust : V.Custody start tr w) (hrel : V.Reliable) (hw : WellFormed w)
    (hpay : Payouts w) (hauth : Authorized env w) (hidle : 0 ≤ V.idleGrowth start tr)
    (hc : w.storage.config = some config) (hv : config.Uses token vault)
    (hp : config.paused = false) (hs : config.state = .Finished) {p : Address}
    (hwin : w.storage.winner = some p) :
    ∃ w', Step env w (.call [p] (.claim p)) w' ∧
      w'.storage.config = some { config with state := .Settled } := by
  obtain ⟨hbal, hpayout, hnonneg⟩ := hcust.payout hrel hw hidle hc hv hs (by rw [hwin]; simp)
  have hplays := hpay.winner_mem hw hwin
  have hauths : ∀ a ∈ [p], env.mayAuthorize a := by
    intro a ha
    rw [List.mem_singleton.mp ha]
    exact hauth.players p hplays
  have hunclaimed : w.storage.isPrizeClaimed = false := by
    by_contra hclaimed
    have hset := hpay.claimed (by simpa using hclaimed)
    cases hset.unique ⟨config, hc, hs⟩
  obtain ⟨⟨x, between⟩, hr⟩ := hrel.withdraws w.now w.outside
  obtain ⟨hx, -, hfull⟩ := V.withdrawAll_spec hr
  have hpos := V.position_nonneg w.outside
  have hhere := V.balance_nonneg w.outside
  have henough : min config.payout x ≤ V.balance between env.here := by omega
  obtain ⟨outside, htr⟩ := hrel.pays w.now p (min config.payout x) between (by omega) henough
  rw [← hv.1] at htr
  have hwd : (env.withdrawAll w.now config.yieldVault env.here w.outside).getD
      (config.payout, w.outside) = (x, between) := by
    rw [hv.2, hr]
    rfl
  exact ⟨_, .call hauths (exec_of_effect rfl (.claimed hw.guard (List.mem_singleton.mpr rfl) hc hp
    hs hunclaimed hwin hwd rfl htr)), rfl⟩

end Steps

end HonestVault

variable {env : Env H} {token vault : Address} {V : HonestVault env token vault} {start : H}
  {now : ℕ} {tr : List (World H × Action H)} {w : World H} {config : ArenaConfig}

/-- It is enough to reach an ended state in which no refund is owed. -/
theorem nothingLocked_of_paid {tr' : List (World H × Action H)} {w' : World H}
    {config' : ArenaConfig} (hrel : V.Reliable)
    (hrun : Run (Step env) (World.fresh start now) tr w) (hstart : V.position start = 0)
    (hharm : ∀ e ∈ tr, V.Harmless e.1 e.2) (hrun' : Run (Step env) w tr' w')
    (hharm' : ∀ e ∈ tr', V.Harmless e.1 e.2) (hc' : w'.storage.config = some config')
    (hv : config'.Uses token vault) (hpaid : ¬ Unpaid w')
    (howed : HonestVault.owed config' w'.storage = 0) :
    V.NothingLocked start (tr' ++ tr) w' := by
  have hwhole := hrun.append hrun'
  have hall : ∀ e ∈ tr' ++ tr, V.Harmless e.1 e.2 := by
    intro e he
    rcases List.mem_append.mp he with he | he
    · exact hharm' e he
    · exact hharm e he
  obtain ⟨hpos, hbal⟩ := HonestVault.cleared_of_run hrel hwhole hstart hall config' hc' hv hpaid
  rw [howed, add_zero] at hbal
  exact ⟨hpos, hbal, paysPlayers_of_run V.unauthorized hwhole⟩

theorem owed_of_ne {s : ArenaStorage} (h : config.state ≠ .Cancelled) :
    HonestVault.owed config s = 0 := if_neg h

/-- In every harmless run with an honest vault whose calls succeed: in every
    ended state, some claims, refunds and administrative calls lead to a state
    in which all money but what was given to the arena on the side has been
    paid to players. -/
theorem no_funds_locked (hrel : V.Reliable) (hrun : Run (Step env) (World.fresh start now) tr w)
    (hstart : V.position start = 0) (hharm : ∀ e ∈ tr, V.Harmless e.1 e.2)
    (hc : w.storage.config = some config) (hv : config.Uses token vault)
    (hend : config.state = .Finished ∨ config.state = .Settled ∨ config.state = .Cancelled) :
    ∃ tr' w', Run (Step env) w tr' w' ∧ (∀ e ∈ tr', e.2.settles = true) ∧
      V.NothingLocked start (tr' ++ tr) w' := by
  obtain ⟨⟨hw, hpay⟩, -⟩ := run_of_fresh hrun
  have hauth := authorized_of_run hrun
  -- an arena that has nothing more to pay
  have hdone : ¬ Unpaid w → config.state ≠ .Cancelled → ∃ tr' w', Run (Step env) w tr' w' ∧
      (∀ e ∈ tr', e.2.settles = true) ∧ V.NothingLocked start (tr' ++ tr) w' := by
    intro hpaid hne
    refine ⟨[], w, .nil, fun e he => ?_, nothingLocked_of_paid hrel hrun hstart hharm .nil
      (fun e he => ?_) hc hv hpaid (owed_of_ne hne)⟩
    · cases he
    · cases he
  rcases hend with hs | hs | hs
  · cases hwin : w.storage.winner with
    | none =>
      exact hdone (not_unpaid hc (.inr (.inr ⟨hs, hwin⟩))) (by rw [hs]; simp)
    | some p =>
      obtain ⟨tr₁, w₁, hrun₁, hsteps₁, hc₁, hwin₁⟩ := V.exists_unpaused hauth hc
      have hwhole := hrun.append hrun₁
      obtain ⟨⟨hw₁, hpay₁⟩, -⟩ := run_of_fresh hwhole
      obtain ⟨w₂, hstep, hc₂⟩ := HonestVault.exists_claim (V.custody_of_run hwhole) hrel hw₁ hpay₁
        (authorized_of_run hwhole) (HonestVault.idleGrowth_nonneg hwhole) hc₁ hv rfl hs
        (hwin₁.trans hwin)
      have hsteps : ∀ e ∈ (w₁, Action.call [p] (.claim p)) :: tr₁,
          e.2.settles = true ∧ V.Harmless e.1 e.2 :=
        List.forall_mem_cons.mpr ⟨⟨rfl, trivial⟩, hsteps₁⟩
      exact ⟨_, w₂, hrun₁.snoc hstep, fun e he => (hsteps e he).1,
        nothingLocked_of_paid hrel hrun hstart hharm (hrun₁.snoc hstep)
          (fun e he => (hsteps e he).2) hc₂ hv (not_unpaid hc₂ (.inl rfl))
          (owed_of_ne (by simp))⟩
  · exact hdone (not_unpaid hc (.inl hs)) (by rw [hs]; simp)
  · obtain ⟨hpos, hbal⟩ := HonestVault.cleared_of_run hrel hrun hstart hharm config hc hv
      (not_unpaid hc (.inr (.inl hs)))
    have hgiven : 0 ≤ V.donated start tr := HonestVault.donated_nonneg hrun
    have howed : HonestVault.owed config w.storage =
        config.entryFee * w.storage.unrefunded.length := if_pos hs
    have hnodup : w.storage.unrefunded.Nodup := hw.nodup.filter _
    have hsub : ∀ p ∈ w.storage.unrefunded, p ∈ w.storage.unrefunded := fun _ hp => hp
    have henough : config.entryFee * (w.storage.unrefunded.length : ℤ) ≤
        V.balance w.outside env.here := by omega
    obtain ⟨tr', w', hrun', hcalls, hc', -, hunref⟩ := HonestVault.exists_refunds hrel.pays hw
      hauth hc hv hs hnodup hsub henough
    have hsteps : ∀ e ∈ tr', e.2.settles = true ∧ V.Harmless e.1 e.2 := by
      rintro ⟨t, a⟩ he
      have hmem : a ∈ tr'.reverse.map fun e => e.2 :=
        List.mem_map.mpr ⟨(t, a), List.mem_reverse.mpr he, rfl⟩
      rw [hcalls] at hmem
      obtain ⟨p, -, rfl⟩ := List.mem_map.mp hmem
      exact ⟨rfl, trivial⟩
    have hnone : w'.storage.unrefunded = [] := by
      rw [hunref, List.filter_eq_nil_iff]
      intro p hp
      simp [hp]
    refine ⟨tr', w', hrun', fun e he => (hsteps e he).1, nothingLocked_of_paid hrel hrun hstart
      hharm hrun' (fun e he => (hsteps e he).2) hc' hv
      (not_unpaid hc' (.inr (.inl hs))) ?_⟩
    unfold HonestVault.owed
    rw [if_pos hs, hnone]
    exact mul_zero _

/-- The vault earns 50 during the round: after the game nothing is locked. -/
theorem no_funds_locked_game : ∃ tr w tr' w',
    Run (Step (reference false)) (World.fresh VaultState.sample 0) tr w ∧
      InState w .Finished ∧ w.outside.position = 250 ∧ Run (Step (reference false)) w tr' w' ∧
      (referenceVault false).NothingLocked
        VaultState.sample (tr' ++ tr) w' := by
  obtain ⟨tr, w, hrun, hharm, hpos, config, hc, hv, hs⟩ : ∃ tr w,
      Run (Step (reference false)) (World.fresh VaultState.sample 0) tr w ∧
        (∀ e ∈ tr, (referenceVault false).Harmless e.1 e.2) ∧ w.outside.position = 250 ∧
        ∃ config ∈ w.storage.config, (config.stakeToken = ⟨1⟩ ∧ config.yieldVault = ⟨2⟩) ∧
          config.state = .Finished :=
    exists_run (sampleGame 100 ++ [.outside (.grow 50), .call [⟨10⟩] .resolveRound])
      (by decide +kernel)
  obtain ⟨tr', w', hrun', -, hlocked⟩ :=
    no_funds_locked referenceVault_reliable hrun rfl hharm hc hv (.inl hs)
  exact ⟨tr, w, tr', w', hrun, ⟨config, hc, hs⟩, hpos, hrun', hlocked⟩

/-! ## When nobody revealed -/

/-- In a finished arena without a winner no call moves any money. -/
theorem Step.outside_eq {w w' : World H} {a : Action H} (h : Step env w a w')
    (hun : Unclaimable w) (ha : a.isExternal = false) : w'.outside = w.outside := by
  obtain ⟨hfin, hwin⟩ := hun
  cases h with
  | call hauths hexec =>
    cases exec_effect hexec with
    | initialized hauth hnone =>
      obtain ⟨config, hc, -⟩ := hfin
      rw [hnone] at hc
      cases hc
    | administered hadm hc hc' hlim hadmin => rfl
    | joined hguard hauth hc hp hs => exact hfin.elim hc hs (by simp)
    | committed hauth hc hp hs => rfl
    | revealed hauth hc hp hpl hpa hchoice hnow hopen => rfl
    | roundStarted hc hauth hp hs => exact hfin.elim hc hs (by simp)
    | roundResolved hguard hc hauth hp hs => exact hfin.elim hc hs (by simp)
    | cancelled hguard hc hauth hp hs => exact hfin.elim hc hs (by simp)
    | expired hguard hc hp hs => exact hfin.elim hc hs (by simp)
    | claimed hguard hauth hc hp hs hclaimed hwinner =>
      rw [hwin] at hwinner
      cases hwinner
    | forceCancelled hguard hc hauth hs =>
      rcases hs with hs | hs
      · exact hfin.elim hc hs (by simp)
      · exact hfin.elim hc hs (by simp)
    | forceCancelledAgain hguard hc hauth hs => rfl
    | refunded hauth hc hs => exact hfin.elim hc hs (by simp)
  | external _ => cases ha
  | tick _ _ => rfl

theorem Unclaimable.outside_eq_of_run {w₀ : World H} (hw : WellFormed w₀) (h : Unclaimable w₀)
    (hrun : Run (Step env) w₀ tr w) (hcalls : ∀ e ∈ tr, e.2.isExternal = false) :
    w.outside = w₀.outside := by
  have hall : WellFormed w ∧ Unclaimable w ∧ w.outside = w₀.outside := by
    refine hrun.invariant_of_forall
      (I := fun w => WellFormed w ∧ Unclaimable w ∧ w.outside = w₀.outside)
      (C := fun _ a => a.isExternal = false) ?_ hcalls ⟨hw, h, rfl⟩
    rintro t a u ⟨ht, hun, hout⟩ ha hs
    exact ⟨ht.step hs, hs.unclaimable ht hun, (hs.outside_eq hun ha).trans hout⟩
  exact hall.2.2

/-- Nobody reveals in the first round: the game is finished, the stakes are in
    the vault, and no sequence of calls gets them out. -/
theorem nobody_revealed_locks : ∃ tr w,
    Run (Step (reference false)) (World.fresh VaultState.sample 0) tr w ∧
      InState w .Finished ∧ w.outside.position = 200 ∧
      ∀ tr' w', Run (Step (reference false)) w tr' w' → (∀ e ∈ tr', e.2.isExternal = false) →
        ¬ (referenceVault false).NothingLocked
          VaultState.sample (tr' ++ tr) w' := by
  obtain ⟨tr, w, hrun, hfin, hpos, hwin⟩ : ∃ tr w,
      Run (Step (reference false)) (World.fresh VaultState.sample 0) tr w ∧
        InState w .Finished ∧ w.outside.position = 200 ∧ w.storage.winner = none :=
    exists_run
      (sampleJoins 100 ++ [.call [⟨10⟩] (.startRound 60), .tick 60, .call [⟨10⟩] .resolveRound])
      (by decide +kernel)
  refine ⟨tr, w, hrun, hfin, hpos, fun tr' w' hrun' hcalls hlocked => ?_⟩
  have hout : w'.outside = w.outside :=
    Unclaimable.outside_eq_of_run (wellFormed_of_run hrun) ⟨hfin, hwin⟩ hrun' hcalls
  have hempty : w'.outside.position = 0 := hlocked.1
  rw [hout] at hempty
  omega

end InverseArena.Arena
