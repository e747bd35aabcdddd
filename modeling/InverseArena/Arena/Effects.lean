import InverseArena.Arena.Contract

/-!
# What a successful call does

One rule per entry point: its guards and the world it leaves behind, with the
calls to other contracts as premises. The administrative entry points, which
do not touch the game, share one rule.

Results:
* `exec_effect`: a successful call follows a rule.
* `exec_of_effect`: for the entry points of the game, the converse.
* `settleRound_eq`: the storage after `resolve_round`.
-/

namespace InverseArena.Arena

open Host MachineInt

variable {H : Type}

/-- The entry points that configure the arena, and the changes of admin. -/
def Call.isAdministrative : Call → Bool
  | .proposeUpgrade _ | .configurePlayerLimits _ _ | .banPlayer _ | .unbanPlayer _
  | .proposeAdmin _ | .acceptAdmin | .changeAdmin _ | .pause _ | .unpause
  | .configureLeaderboardLimit _ => true
  | _ => false

/-- The configuration stored by `initialize`. -/
def InitializeArgs.config (a : InitializeArgs) : ArenaConfig :=
  { admin := a.admin, stakeToken := a.stakeToken, yieldVault := a.yieldVault
    entryFee := a.entryFee, state := .Open, paused := false, playerCount := 0
    cumulativeYield := 0, commitDeadline := 0, roundCount := 0
    oracleContract := a.oracleContract, factory := a.factory, poolId := a.poolId
    roundDuration := a.roundDuration }

/-- The bounds on player limits that `initialize` and
    `configure_player_limits` accept. -/
def ValidLimits (minPlayers maxPlayers : ℕ) : Prop :=
  minPlayersToStart ≤ minPlayers ∧ minPlayers ≤ maxPlayers ∧ maxPlayers ≤ maxPlayersAllowed

/-- The players that are still in the game. -/
def ArenaStorage.activePlayers (s : ArenaStorage) : List Address :=
  s.loadAllPlayers.filter s.isActive

/-- The transfers of `amount` to each of `players` in turn. -/
def payEach (env : Env H) (now : ℕ) (token : Address) (amount : ℤ) :
    List Address → H → Option H
  | [], h => some h
  | player :: players, h =>
    (env.transfer now token env.here player amount h).bind (payEach env now token amount players)

/-- The record of such transfers. -/
def payments (env : Env H) (token : Address) (amount : ℤ) (players : List Address) :
    List Transfer :=
  players.map fun player => ⟨token, env.here, player, amount⟩

/-- The round being played, or to be played next. -/
def ArenaConfig.round (config : ArenaConfig) : ℕ := satAddU32 config.roundCount 1

/-- `principal.saturating_add(total_yield)` in `claim`. -/
def ArenaConfig.payout (config : ArenaConfig) : ℤ :=
  satAddI128 (wrapI128 (config.entryFee * config.playerCount)) config.cumulativeYield

/-- A successful call `c` authorized by `auths` takes `w` to the third argument. -/
inductive Effect (env : Env H) (auths : List Address) : World H → Call → World H → Prop
  | initialized {w : World H} {a : InitializeArgs} {balance : ℤ} {outside : H} :
      a.admin ∈ auths → w.storage.config = none → 0 < a.entryFee →
      ValidLimits a.minPlayers a.maxPlayers →
      env.balanceOf w.now a.yieldVault env.here w.outside = some (balance, outside) →
      Effect env auths w (.initializeArena a) { w with
        outside := outside
        events := w.events ++ [.initialized a.admin]
        storage := { w.storage with
          config := some a.config
          creatorActivePools :=
            (w.storage.incrementCreatorActivePools a.admin).creatorActivePools
          minPlayers := some a.minPlayers
          maxPlayers := some a.maxPlayers
          lastVaultBalance := some 0 } }
  | administered {w : World H} {c : Call} {config : ArenaConfig} {config' : Option ArenaConfig}
      {admin : Address} {paused : Bool} {banned : Address → Option Bool}
      {minPlayers maxPlayers limit : Option ℕ} {pendingAdmin : Option PendingAdmin}
      {pendingUpgrade : Option PendingUpgrade} {events : List ArenaEvent} :
      c.isAdministrative = true → w.storage.config = some config →
      config' = some { config with admin := admin, paused := paused } →
      (minPlayers = w.storage.minPlayers ∧ maxPlayers = w.storage.maxPlayers ∨
        ∃ lo hi, minPlayers = some lo ∧ maxPlayers = some hi ∧ ValidLimits lo hi) →
      (admin = config.admin ∨ admin ∈ auths) →
      Effect env auths w c { w with
        events := events
        storage := { w.storage with
          config := config'
          bannedPlayer := banned
          minPlayers := minPlayers
          maxPlayers := maxPlayers
          leaderboardLimit := limit
          pendingAdmin := pendingAdmin
          pendingUpgrade := pendingUpgrade } }
  | joined {w : World H} {player : Address} {config : ArenaConfig} {paid outside : H} :
      w.storage.reentrancyGuardEntered = false → player ∈ auths →
      w.storage.config = some config → config.paused = false → config.state = .Open →
      player ≠ config.admin → w.storage.isPlayerBanned player = false →
      w.storage.player player = none →
      (∀ maxPlayers ∈ w.storage.maxPlayers, config.playerCount < maxPlayers) →
      env.transfer w.now config.stakeToken player env.here config.entryFee w.outside = some paid →
      env.deposit w.now config.yieldVault env.here config.entryFee paid = some outside →
      Effect env auths w (.joinArena player) { w with
        outside := outside
        transfers := w.transfers ++ [⟨config.stakeToken, player, env.here, config.entryFee⟩]
        events := w.events ++ [.playerJoined player (w.storage.loadAllPlayers ++ [player]).length]
        storage := { w.storage with
          config := some { config with
            playerCount := (w.storage.loadAllPlayers ++ [player]).length }
          players := some (w.storage.loadAllPlayers ++ [player])
          player := Function.update w.storage.player player (some ⟨true, 0⟩)
          lastVaultBalance :=
            some (satAddI128 w.storage.loadLastVaultBalance config.entryFee)
          reentrancyGuard := none } }
  | committed {w : World H} {player : Address} {commitment : BytesN 32} {config : ArenaConfig}
      {state : PlayerState} :
      player ∈ auths → w.storage.config = some config → config.paused = false →
      config.state = .Active → w.now < config.commitDeadline →
      w.storage.player player = some state → state.active = true →
      Effect env auths w (.submitCommitment player commitment) { w with
        events := w.events ++ [.commitmentSubmitted player config.round]
        storage := { w.storage with
          commitment :=
            Function.update w.storage.commitment (player, config.round) (some commitment) } }
  | revealed {w : World H} {player : Address} {choice : Choice} {salt : BytesN 32}
      {config : ArenaConfig} {state : PlayerState} :
      player ∈ auths → w.storage.config = some config → config.paused = false →
      w.storage.player player = some state → state.active = true →
      w.storage.choice (player, config.round) = none → config.commitDeadline ≤ w.now →
      w.storage.commitment (player, config.round) = some (computeCommitment env choice salt) →
      Effect env auths w (.revealChoice player choice salt) { w with
        events := w.events ++ [.choiceRevealed player choice config.round]
        storage := { w.storage with
          choice := Function.update w.storage.choice (player, config.round) (some choice) } }
  | roundStarted {w : World H} {durationSeconds : ℕ} {config : ArenaConfig} :
      w.storage.config = some config → config.admin ∈ auths → config.paused = false →
      config.state = .Open → w.storage.loadMinPlayers ≤ w.storage.activePlayers.length →
      Effect env auths w (.startRound durationSeconds) { w with
        outside := (vaultBalanceOr env w.now config.yieldVault 0 w.outside).2
        events := w.events ++ [.gameStarted config.round durationSeconds]
        storage := { w.storage with
          config := some { config with
            commitDeadline := satAddU64 w.now durationSeconds, state := .Active }
          choice := fun k => if k.2 = config.round ∧ k.1 ∈ w.storage.loadAllPlayers then none
            else w.storage.choice k
          commitment := fun k => if k.2 = config.round ∧ k.1 ∈ w.storage.loadAllPlayers then none
            else w.storage.commitment k
          roundStart := some w.now
          roundDuration := some durationSeconds
          lastVaultBalance := some (vaultBalanceOr env w.now config.yieldVault 0 w.outside).1 } }
  | roundResolved {w : World H} {config : ArenaConfig} {roundStart : ℕ} :
      w.storage.reentrancyGuardEntered = false → w.storage.config = some config →
      config.admin ∈ auths → config.paused = false → config.state = .Active →
      w.storage.roundStart = some roundStart →
      satAddU64 roundStart w.storage.loadRoundDuration ≤ w.now →
      Effect env auths w .resolveRound
        (settleRound env config
          { w with storage := { w.storage with reentrancyGuard := some true } })
  | cancelled {w : World H} {config : ArenaConfig} {outside : H} :
      w.storage.reentrancyGuardEntered = false → w.storage.config = some config →
      config.admin ∈ auths → config.paused = false → config.state = .Open →
      withdrawIfJoined env config w.now w.outside = some outside →
      Effect env auths w .cancelArena { w with
        outside := outside
        events := w.events ++ [.arenaCancelled config.admin]
        storage := { w.storage with
          config := some { config with state := .Cancelled }
          creatorActivePools := w.storage.poolsDecremented config.admin
          reentrancyGuard := none } }
  | expired {w : World H} {config : ArenaConfig} {withdrawn outside : H} :
      w.storage.reentrancyGuardEntered = false → w.storage.config = some config →
      config.paused = false → config.state = .Active → config.commitDeadline < w.now →
      withdrawIfJoined env config w.now w.outside = some withdrawn →
      payEach env w.now config.stakeToken config.entryFee w.storage.activePlayers withdrawn =
        some outside →
      Effect env auths w .expireArena { w with
        outside := outside
        transfers := w.transfers ++
          payments env config.stakeToken config.entryFee w.storage.activePlayers
        events := w.events ++ [.arenaExpired]
        storage := { w.storage with
          config := some { config with state := .Finished }
          creatorActivePools := w.storage.poolsDecremented config.admin
          reentrancyGuard := none } }
  | claimed {w : World H} {winner : Address} {config : ArenaConfig} {withdrawn total : ℤ}
      {between outside : H} :
      w.storage.reentrancyGuardEntered = false → winner ∈ auths →
      w.storage.config = some config → config.paused = false → config.state = .Finished →
      w.storage.isPrizeClaimed = false → w.storage.winner = some winner →
      (env.withdrawAll w.now config.yieldVault env.here w.outside).getD
        (config.payout, w.outside) = (withdrawn, between) →
      total = min config.payout withdrawn →
      env.transfer w.now config.stakeToken env.here winner total between = some outside →
      Effect env auths w (.claim winner) { w with
        outside := outside
        transfers := w.transfers ++ [⟨config.stakeToken, env.here, winner, total⟩]
        events := w.events ++ [.prizeClaimed winner total
          (satSubI128 total (wrapI128 (config.entryFee * config.playerCount)))]
        storage := { w.storage with
          config := some { config with state := .Settled }
          prizeClaimed := some true
          reentrancyGuard := none } }
  | forceCancelled {w : World H} {config : ArenaConfig} :
      w.storage.reentrancyGuardEntered = false → w.storage.config = some config →
      config.admin ∈ auths → config.state = .Open ∨ config.state = .Active →
      Effect env auths w .forceCancelArena { w with
        outside := ((env.withdrawAll w.now config.yieldVault env.here w.outside).map
          (·.2)).getD w.outside
        events := w.events ++ [.arenaCancelled config.admin]
        storage := { w.storage with
          config := some { config with state := .Cancelled }
          creatorActivePools := w.storage.poolsDecremented config.admin
          reentrancyGuard := none } }
  | forceCancelledAgain {w : World H} {config : ArenaConfig} :
      w.storage.reentrancyGuardEntered = false → w.storage.config = some config →
      config.admin ∈ auths → config.state = .Cancelled →
      Effect env auths w .forceCancelArena
        { w with storage := { w.storage with reentrancyGuard := none } }
  | refunded {w : World H} {player : Address} {config : ArenaConfig} {outside : H} :
      player ∈ auths → w.storage.config = some config → config.state = .Cancelled →
      w.storage.isRefundClaimed player = false → (w.storage.player player).isSome = true →
      env.transfer w.now config.stakeToken env.here player config.entryFee w.outside =
        some outside →
      Effect env auths w (.claimRefund player) { w with
        outside := outside
        transfers := w.transfers ++ [⟨config.stakeToken, env.here, player, config.entryFee⟩]
        events := w.events ++ [.refundClaimed player]
        storage := { w.storage with
          refundClaimed := Function.update w.storage.refundClaimed player (some true) } }

/-! ## Successful calls follow the rules -/

section Forward

variable {env : Env H} {auths : List Address} {w w' : World H}

theorem transfer_eq_ok {token sender recipient : Address} {amount : ℤ} :
    w.transfer env token sender recipient amount = .ok w' ↔
      ∃ outside, env.transfer w.now token sender recipient amount w.outside = some outside ∧
        { w with
          outside := outside
          transfers := w.transfers ++ [⟨token, sender, recipient, amount⟩] } = w' := by
  simp only [World.transfer, Fallible.bind_eq_ok, unwrap_eq_ok, Fallible.pure_eq_ok]

theorem initializeArena_effect {a : InitializeArgs}
    (h : initializeArena env auths a w = .ok w') : Effect env auths w (.initializeArena a) w' := by
  simp only [initializeArena, ArenaStorage.hasConfig, Fallible.bind_eq_ok, requireAuth_eq_ok,
    check_eq_ok, okOr_eq_ok, Fallible.pure_eq_ok, exists_const, Option.isSome_eq_false_iff,
    Option.isNone_iff_eq_none, not_or, not_lt, gt_iff_lt, not_le, Prod.exists] at h
  obtain ⟨ha, hnone, hfee, ⟨hmin, hle⟩, hmax, balance, outside, hbal, rfl⟩ := h
  exact .initialized ha hnone hfee ⟨hmin, hle, hmax⟩ hbal

theorem administrative_effect {c : Call} (hadm : c.isAdministrative = true)
    (h : exec env auths c w = .ok w') : Effect env auths w c w' := by
  cases c with
  | proposeUpgrade hash =>
    simp only [exec, proposeUpgrade, ArenaStorage.loadConfig, Fallible.bind_eq_ok,
      requireAuth_eq_ok, okOr_eq_ok, Fallible.pure_eq_ok, exists_const] at h
    obtain ⟨config, hc, -, rfl⟩ := h
    exact .administered hadm hc hc (.inl ⟨rfl, rfl⟩) (.inl rfl)
  | configurePlayerLimits lo hi =>
    simp only [exec, configurePlayerLimits, validatePlayerLimits, ArenaStorage.loadConfig,
      Fallible.bind_eq_ok, requireAuth_eq_ok, check_eq_ok, okOr_eq_ok, Fallible.pure_eq_ok,
      exists_const, not_or, not_lt, gt_iff_lt] at h
    obtain ⟨config, hc, -, ⟨⟨hmin, hle⟩, hmax⟩, rfl⟩ := h
    exact .administered hadm hc hc (.inr ⟨lo, hi, rfl, rfl, hmin, hle, hmax⟩) (.inl rfl)
  | banPlayer player =>
    simp only [exec, banPlayer, ArenaStorage.loadConfig, Fallible.bind_eq_ok, requireAuth_eq_ok,
      okOr_eq_ok, Fallible.pure_eq_ok, exists_const] at h
    obtain ⟨config, hc, -, rfl⟩ := h
    exact .administered hadm hc hc (.inl ⟨rfl, rfl⟩) (.inl rfl)
  | unbanPlayer player =>
    simp only [exec, unbanPlayer, ArenaStorage.loadConfig, Fallible.bind_eq_ok, requireAuth_eq_ok,
      okOr_eq_ok, Fallible.pure_eq_ok, exists_const] at h
    obtain ⟨config, hc, -, rfl⟩ := h
    exact .administered hadm hc hc (.inl ⟨rfl, rfl⟩) (.inl rfl)
  | proposeAdmin admin | changeAdmin admin =>
    simp only [exec, changeAdmin, proposeAdmin, ArenaStorage.loadConfig, Fallible.bind_eq_ok,
      requireAuth_eq_ok, okOr_eq_ok, requireNotPaused_eq_ok, Fallible.pure_eq_ok,
      exists_const] at h
    obtain ⟨config, hc, -, -, rfl⟩ := h
    exact .administered hadm hc hc (.inl ⟨rfl, rfl⟩) (.inl rfl)
  | acceptAdmin =>
    simp only [exec, acceptAdmin, ArenaStorage.loadConfig, Fallible.bind_eq_ok, requireAuth_eq_ok,
      okOr_eq_ok, requireNotPaused_eq_ok, Fallible.pure_eq_ok, exists_const] at h
    obtain ⟨pending, -, ha, config, hc, -, rfl⟩ := h
    exact .administered hadm hc rfl (.inl ⟨rfl, rfl⟩) (.inr ha)
  | pause reason =>
    simp only [exec, pause, ArenaStorage.loadConfig, Fallible.bind_eq_ok, requireAuth_eq_ok,
      okOr_eq_ok, Fallible.pure_eq_ok, exists_const] at h
    obtain ⟨config, hc, -, rfl⟩ := h
    exact .administered hadm hc rfl (.inl ⟨rfl, rfl⟩) (.inl rfl)
  | unpause =>
    simp only [exec, unpause, ArenaStorage.loadConfig, Fallible.bind_eq_ok, requireAuth_eq_ok,
      okOr_eq_ok, Fallible.pure_eq_ok, exists_const] at h
    obtain ⟨config, hc, -, rfl⟩ := h
    exact .administered hadm hc rfl (.inl ⟨rfl, rfl⟩) (.inl rfl)
  | configureLeaderboardLimit limit =>
    simp only [exec, configureLeaderboardLimit, ArenaStorage.loadConfig, Fallible.bind_eq_ok,
      requireAuth_eq_ok, okOr_eq_ok, Fallible.pure_eq_ok, exists_const] at h
    obtain ⟨config, hc, -, rfl⟩ := h
    exact .administered hadm hc hc (.inl ⟨rfl, rfl⟩) (.inl rfl)
  | _ => cases hadm

theorem joinArena_effect {player : Address} (h : joinArena env auths player w = .ok w') :
    Effect env auths w (.joinArena player) w' := by
  simp only [joinArena, ArenaStorage.enterReentrancyGuard_eq_ok, ArenaStorage.loadConfig,
    ArenaStorage.loadPlayer, ArenaStorage.loadMaxPlayers, Fallible.bind_eq_ok, requireAuth_eq_ok,
    check_eq_ok, okOr_eq_ok, requireNotPaused_eq_ok, transfer_eq_ok, Fallible.pure_eq_ok,
    exists_const, Option.isSome_eq_false_iff, Option.isNone_iff_eq_none, ge_iff_le, not_le] at h
  obtain ⟨s, ⟨hguard, rfl⟩, ha, config, hc, hp, hopen, hne, hban, hnone, hmax, w₁,
    ⟨paid, htr, rfl⟩, outside, hdep, rfl⟩ := h
  rw [ArenaStorage.addPlayer_eq (by exact hc)]
  exact .joined hguard ha hc hp hopen hne hban hnone hmax htr hdep

theorem submitCommitment_effect {player : Address} {commitment : BytesN 32}
    (h : submitCommitment auths player commitment w = .ok w') :
    Effect env auths w (.submitCommitment player commitment) w' := by
  simp only [submitCommitment, ArenaStorage.loadConfig, ArenaStorage.loadPlayer,
    Fallible.bind_eq_ok, requireAuth_eq_ok, check_eq_ok, okOr_eq_ok, requireNotPaused_eq_ok,
    Fallible.pure_eq_ok, exists_const, ge_iff_le, not_le] at h
  obtain ⟨ha, config, hc, hp, hactive, hnow, state, hs, hsa, rfl⟩ := h
  exact .committed ha hc hp hactive hnow hs hsa

theorem revealChoice_effect {player : Address} {choice : Choice} {salt : BytesN 32}
    (h : revealChoice env auths player choice salt w = .ok w') :
    Effect env auths w (.revealChoice player choice salt) w' := by
  simp only [revealChoice, ArenaStorage.loadConfig, ArenaStorage.loadPlayer,
    ArenaStorage.loadChoice, ArenaStorage.loadCommitment, Fallible.bind_eq_ok, requireAuth_eq_ok,
    check_eq_ok, okOr_eq_ok, requireNotPaused_eq_ok, Fallible.pure_eq_ok, exists_const,
    Option.isSome_eq_false_iff, Option.isNone_iff_eq_none, not_lt] at h
  obtain ⟨ha, config, hc, hp, state, hs, hsa, hchoice, hnow, commitment, hcom, rfl, rfl⟩ := h
  exact .revealed ha hc hp hs hsa hchoice hnow hcom

theorem startRound_effect {durationSeconds : ℕ}
    (h : startRound env auths durationSeconds w = .ok w') :
    Effect env auths w (.startRound durationSeconds) w' := by
  simp only [startRound, ArenaStorage.loadConfig, Fallible.bind_eq_ok, requireAuth_eq_ok,
    check_eq_ok, okOr_eq_ok, requireNotPaused_eq_ok, ensureTransition_eq_ok,
    canTransition_active_iff, Fallible.pure_eq_ok, exists_const, not_lt,
    ArenaStorage.clearRoundData_eq] at h
  obtain ⟨config, hc, ha, hp, hopen, hmin, rfl⟩ := h
  exact .roundStarted hc ha hp hopen hmin

theorem resolveRound_effect (h : resolveRound env auths w = .ok w') :
    Effect env auths w .resolveRound w' := by
  simp only [resolveRound, ArenaStorage.enterReentrancyGuard_eq_ok, ArenaStorage.loadConfig,
    ArenaStorage.loadRoundStart, Fallible.bind_eq_ok, requireAuth_eq_ok, check_eq_ok, okOr_eq_ok,
    requireNotPaused_eq_ok, Fallible.pure_eq_ok, exists_const, not_lt] at h
  obtain ⟨s, ⟨hguard, rfl⟩, config, hc, ha, hp, hactive, roundStart, hstart, hnow, rfl⟩ := h
  exact .roundResolved hguard hc ha hp hactive hstart hnow

theorem cancelArena_effect (h : cancelArena env auths w = .ok w') :
    Effect env auths w .cancelArena w' := by
  simp only [cancelArena, ArenaStorage.enterReentrancyGuard_eq_ok, ArenaStorage.loadConfig,
    Fallible.bind_eq_ok, requireAuth_eq_ok, ensureState_eq_ok, okOr_eq_ok, unwrap_eq_ok,
    requireNotPaused_eq_ok, Fallible.pure_eq_ok, exists_const] at h
  obtain ⟨s, ⟨hguard, rfl⟩, config, hc, ha, hp, hopen, outside, hwd, rfl⟩ := h
  rw [ArenaStorage.decrementCreatorActivePools_eq]
  exact .cancelled hguard hc ha hp hopen hwd

theorem refundActive_eq_ok {config : ArenaConfig} {players : List Address} :
    refundActive env config players w = .ok w' ↔
      ∃ outside, payEach env w.now config.stakeToken config.entryFee
          (players.filter w.storage.isActive) w.outside = some outside ∧
        { w with
          outside := outside
          transfers := w.transfers ++ payments env config.stakeToken config.entryFee
            (players.filter w.storage.isActive) } = w' := by
  induction players generalizing w with
  | nil => simp [refundActive, payEach, payments]
  | cons player players ih =>
    unfold refundActive
    rw [List.filter_cons]
    split_ifs with hactive
    · simp only [Fallible.bind_eq_ok, transfer_eq_ok, ih, payEach, payments,
        Option.bind_eq_some_iff]
      constructor
      · rintro ⟨w₁, ⟨o₁, htr, rfl⟩, outside, hpay, rfl⟩
        exact ⟨outside, ⟨o₁, htr, hpay⟩, by simp⟩
      · rintro ⟨outside, ⟨o₁, htr, hpay⟩, rfl⟩
        exact ⟨_, ⟨o₁, htr, rfl⟩, outside, hpay, by simp⟩
    · exact ih

theorem expireArena_effect (h : expireArena env w = .ok w') :
    Effect env auths w .expireArena w' := by
  simp only [expireArena, ArenaStorage.enterReentrancyGuard_eq_ok, ArenaStorage.loadConfig,
    Fallible.bind_eq_ok, check_eq_ok, okOr_eq_ok, unwrap_eq_ok, requireNotPaused_eq_ok,
    refundActive_eq_ok, Fallible.pure_eq_ok, exists_const, not_le] at h
  obtain ⟨s, ⟨hguard, rfl⟩, config, hc, hp, hactive, hnow, withdrawn, hwd, w₁,
    ⟨outside, hpay, rfl⟩, rfl⟩ := h
  rw [ArenaStorage.decrementCreatorActivePools_eq] at hpay ⊢
  exact .expired hguard hc hp hactive hnow hwd hpay

theorem claim_effect {winner : Address} (h : claim env auths winner w = .ok w') :
    Effect env auths w (.claim winner) w' := by
  have hmin : ∀ x y : ℤ, (if x > y then y else x) = min x y := by intro x y; split_ifs <;> omega
  simp only [claim, ArenaStorage.enterReentrancyGuard_eq_ok, ArenaStorage.loadConfig,
    ArenaStorage.getWinner, Fallible.bind_eq_ok, requireAuth_eq_ok, check_eq_ok, okOr_eq_ok,
    requireNotPaused_eq_ok, transfer_eq_ok, Fallible.pure_eq_ok, exists_const, hmin] at h
  obtain ⟨s, ⟨hguard, rfl⟩, ha, config, hc, hp, hfin, hclaimed, stored, hwin, rfl, w₁,
    ⟨outside, htr, rfl⟩, rfl⟩ := h
  exact .claimed hguard ha hc hp hfin hclaimed hwin rfl rfl htr

theorem forceCancelArena_effect (h : forceCancelArena env auths w = .ok w') :
    Effect env auths w .forceCancelArena w' := by
  simp only [forceCancelArena, ArenaStorage.enterReentrancyGuard_eq_ok, ArenaStorage.loadConfig,
    Fallible.bind_eq_ok, requireAuth_eq_ok, check_eq_ok, okOr_eq_ok,
    exists_const, not_or] at h
  obtain ⟨s, ⟨hguard, rfl⟩, config, hc, ha, ⟨hfin, hset⟩, h⟩ := h
  split_ifs at h with hcan
  · simp only [Fallible.pure_eq_ok] at h
    obtain rfl := h
    exact .forceCancelledAgain hguard hc ha hcan
  · simp only [Fallible.pure_eq_ok] at h
    obtain rfl := h
    rw [ArenaStorage.decrementCreatorActivePools_eq]
    refine .forceCancelled hguard hc ha ?_
    cases hs : config.state <;> simp_all

theorem claimRefund_effect {player : Address} (h : claimRefund env auths player w = .ok w') :
    Effect env auths w (.claimRefund player) w' := by
  simp only [claimRefund, ArenaStorage.loadConfig, Fallible.bind_eq_ok, requireAuth_eq_ok,
    check_eq_ok, okOr_eq_ok, transfer_eq_ok, Fallible.pure_eq_ok, exists_const] at h
  obtain ⟨ha, config, hc, -, hcan, href, hpl, w₁, ⟨outside, htr, rfl⟩, rfl⟩ := h
  exact .refunded ha hc hcan href hpl htr

/-- A successful call follows a rule. -/
theorem exec_effect {c : Call} (h : exec env auths c w = .ok w') : Effect env auths w c w' := by
  cases c with
  | initializeArena a => exact initializeArena_effect h
  | joinArena player => exact joinArena_effect h
  | submitCommitment player commitment => exact submitCommitment_effect h
  | revealChoice player choice salt => exact revealChoice_effect h
  | startRound d => exact startRound_effect h
  | resolveRound => exact resolveRound_effect h
  | cancelArena => exact cancelArena_effect h
  | expireArena => exact expireArena_effect h
  | claim winner => exact claim_effect h
  | forceCancelArena => exact forceCancelArena_effect h
  | claimRefund player => exact claimRefund_effect h
  | _ => exact administrative_effect rfl h

end Forward

/-! ## The rules are enough for success -/

section Backward

variable {env : Env H} {auths : List Address} {w w' : World H}

/-- For the entry points of the game the guards of the rules are exact. -/
theorem exec_of_effect {c : Call} (hadm : c.isAdministrative = false)
    (h : Effect env auths w c w') : exec env auths c w = .ok w' := by
  cases h with
  | initialized ha hnone hfee hlim hbal =>
    simp only [exec, initializeArena, Fallible.bind_eq_ok, requireAuth_eq_ok, check_eq_ok,
      okOr_eq_ok, Fallible.pure_eq_ok, exists_const, not_or, not_lt, gt_iff_lt, not_le,
      Prod.exists]
    exact ⟨ha, by unfold ArenaStorage.hasConfig; rw [hnone]; rfl, hfee, ⟨hlim.1, hlim.2.1⟩,
      hlim.2.2, _, _, hbal, rfl⟩
  | administered hadm' => rw [hadm] at hadm'; cases hadm'
  | joined hguard ha hc hp hopen hne hban hnone hmax htr hdep =>
    simp only [exec, joinArena, ArenaStorage.enterReentrancyGuard_eq_ok, ArenaStorage.loadConfig,
      Fallible.bind_eq_ok, requireAuth_eq_ok, check_eq_ok, okOr_eq_ok, requireNotPaused_eq_ok,
      transfer_eq_ok, Fallible.pure_eq_ok, exists_const, ge_iff_le, not_le]
    refine ⟨_, ⟨hguard, rfl⟩, ha, _, hc, hp, hopen, hne, hban, ?_, hmax, _, ⟨_, htr, rfl⟩, _,
      hdep, ?_⟩
    · change (w.storage.player _).isSome = false
      rw [hnone]; rfl
    · rw [ArenaStorage.addPlayer_eq (by exact hc)]; rfl
  | committed ha hc hp hactive hnow hs hsa =>
    simp only [exec, submitCommitment, ArenaStorage.loadConfig, Fallible.bind_eq_ok,
      requireAuth_eq_ok, check_eq_ok, okOr_eq_ok, requireNotPaused_eq_ok, Fallible.pure_eq_ok,
      exists_const, ge_iff_le, not_le]
    exact ⟨ha, _, hc, hp, hactive, hnow, _, hs, hsa, rfl⟩
  | revealed ha hc hp hs hsa hchoice hnow hcom =>
    simp only [exec, revealChoice, ArenaStorage.loadConfig, Fallible.bind_eq_ok,
      requireAuth_eq_ok, check_eq_ok, okOr_eq_ok, requireNotPaused_eq_ok, Fallible.pure_eq_ok,
      exists_const, not_lt]
    refine ⟨ha, _, hc, hp, _, hs, hsa, ?_, hnow, _, hcom, rfl, rfl⟩
    exact congrArg Option.isSome hchoice
  | roundStarted hc ha hp hopen hmin =>
    simp only [exec, startRound, ArenaStorage.loadConfig, Fallible.bind_eq_ok, requireAuth_eq_ok,
      check_eq_ok, okOr_eq_ok, requireNotPaused_eq_ok, ensureTransition_eq_ok,
      canTransition_active_iff, Fallible.pure_eq_ok, exists_const, not_lt,
      ArenaStorage.clearRoundData_eq]
    exact ⟨_, hc, ha, hp, hopen, hmin, rfl⟩
  | roundResolved hguard hc ha hp hactive hstart hnow =>
    simp only [exec, resolveRound, ArenaStorage.enterReentrancyGuard_eq_ok,
      ArenaStorage.loadConfig, Fallible.bind_eq_ok, requireAuth_eq_ok, check_eq_ok, okOr_eq_ok,
      requireNotPaused_eq_ok, Fallible.pure_eq_ok, exists_const, not_lt]
    exact ⟨_, ⟨hguard, rfl⟩, _, hc, ha, hp, hactive, _, hstart, hnow, rfl⟩
  | cancelled hguard hc ha hp hopen hwd =>
    simp only [exec, cancelArena, ArenaStorage.enterReentrancyGuard_eq_ok,
      ArenaStorage.loadConfig, Fallible.bind_eq_ok, requireAuth_eq_ok, ensureState_eq_ok,
      okOr_eq_ok, unwrap_eq_ok, requireNotPaused_eq_ok, Fallible.pure_eq_ok, exists_const]
    refine ⟨_, ⟨hguard, rfl⟩, _, hc, ha, hp, hopen, _, hwd, ?_⟩
    rw [ArenaStorage.decrementCreatorActivePools_eq]; rfl
  | expired hguard hc hp hactive hnow hwd hpay =>
    simp only [exec, expireArena, ArenaStorage.enterReentrancyGuard_eq_ok,
      ArenaStorage.loadConfig, Fallible.bind_eq_ok, check_eq_ok, okOr_eq_ok, unwrap_eq_ok,
      requireNotPaused_eq_ok, refundActive_eq_ok, Fallible.pure_eq_ok, exists_const, not_le,
      ArenaStorage.decrementCreatorActivePools_eq]
    exact ⟨_, ⟨hguard, rfl⟩, _, hc, hp, hactive, hnow, _, hwd, _, ⟨_, hpay, rfl⟩, rfl⟩
  | claimed hguard ha hc hp hfin hclaimed hwin hwd htotal htr =>
    have hmin : ∀ x y : ℤ, (if x > y then y else x) = min x y := by
      intro x y; split_ifs <;> omega
    simp only [exec, claim, ArenaStorage.enterReentrancyGuard_eq_ok, ArenaStorage.loadConfig,
      Fallible.bind_eq_ok, requireAuth_eq_ok, check_eq_ok, okOr_eq_ok, requireNotPaused_eq_ok,
      transfer_eq_ok, Fallible.pure_eq_ok, exists_const, hmin]
    obtain rfl := congrArg Prod.fst hwd
    obtain rfl := congrArg Prod.snd hwd
    subst htotal
    exact ⟨_, ⟨hguard, rfl⟩, ha, _, hc, hp, hfin, hclaimed, _, hwin, rfl, _, ⟨_, htr, rfl⟩, rfl⟩
  | forceCancelled hguard hc ha hstate =>
    simp only [exec, forceCancelArena, ArenaStorage.enterReentrancyGuard_eq_ok,
      ArenaStorage.loadConfig, Fallible.bind_eq_ok, requireAuth_eq_ok, check_eq_ok, okOr_eq_ok,
      exists_const]
    refine ⟨_, ⟨hguard, rfl⟩, _, hc, ha, ?_, ?_⟩
    · rcases hstate with h | h <;> simp [h]
    · rw [if_neg (by rcases hstate with h | h <;> simp [h]),
        ArenaStorage.decrementCreatorActivePools_eq]
      rfl
  | forceCancelledAgain hguard hc ha hcan =>
    simp only [exec, forceCancelArena, ArenaStorage.enterReentrancyGuard_eq_ok,
      ArenaStorage.loadConfig, Fallible.bind_eq_ok, requireAuth_eq_ok, check_eq_ok, okOr_eq_ok,
      exists_const]
    exact ⟨_, ⟨hguard, rfl⟩, _, hc, ha, by simp [hcan], by rw [if_pos hcan]; rfl⟩
  | refunded ha hc hcan href hpl htr =>
    simp only [exec, claimRefund, ArenaStorage.loadConfig, Fallible.bind_eq_ok, requireAuth_eq_ok,
      check_eq_ok, okOr_eq_ok, transfer_eq_ok, Fallible.pure_eq_ok, exists_const]
    exact ⟨ha, _, hc, .inl hcan, hcan, href, hpl, _, ⟨_, htr, rfl⟩, rfl⟩

end Backward

/-! ## The storage after a round -/

section Settle

variable {env : Env H} {w : World H} {config : ArenaConfig}

/-- What `resolve_round` reads from the vault, after it has asked the oracle. -/
def roundReading (env : Env H) (config : ArenaConfig) (w : World H) : ℤ × H :=
  vaultBalanceOr env w.now config.yieldVault w.storage.loadLastVaultBalance
    (fetchYieldBps env config.oracleContract w).2.outside

/-- The yield `resolve_round` records. -/
def roundYield (env : Env H) (config : ArenaConfig) (w : World H) : ℤ :=
  if (roundReading env config w).1 ≥ w.storage.loadLastVaultBalance then
    wrapI128 ((roundReading env config w).1 - w.storage.loadLastVaultBalance)
  else 0

theorem fetchYieldBps_eq (oracle : Address) : ∃ bps outside events,
    fetchYieldBps env oracle w = (bps, { w with outside := outside, events := events }) := by
  unfold fetchYieldBps
  cases env.getCurrentYieldBps w.now oracle w.outside with
  | none => exact ⟨_, _, _, rfl⟩
  | some r => exact ⟨_, _, _, rfl⟩

/-- The reentrancy guard makes no difference to what is read. -/
theorem roundReading_guarded :
    roundReading env config { w with storage := { w.storage with reentrancyGuard := some true } } =
      roundReading env config w := by
  unfold roundReading fetchYieldBps
  dsimp only
  cases env.getCurrentYieldBps w.now config.oracleContract w.outside with
  | none => rfl
  | some r => rfl

theorem roundYield_guarded :
    roundYield env config { w with storage := { w.storage with reentrancyGuard := some true } } =
      roundYield env config w := by
  unfold roundYield
  rw [roundReading_guarded]
  rfl

theorem accruedYield_eq (previous balance : ℤ) : ∃ events,
    accruedYield previous balance w =
      (if balance ≥ previous then wrapI128 (balance - previous) else 0,
        { w with events := events }) := by
  unfold accruedYield
  split_ifs
  · exact ⟨_, rfl⟩
  · exact ⟨_, rfl⟩

theorem snapshotYield_eq (round : ℕ) : ∃ bps events, snapshotYield env config round w =
    (⟨round, bps, roundYield env config w⟩, { w with
      outside := (roundReading env config w).2
      events := events
      storage := { w.storage with
        roundYieldBps := Function.update w.storage.roundYieldBps round (some bps)
        yieldSnapshot := Function.update w.storage.yieldSnapshot round
          (some ⟨round, bps, roundYield env config w⟩)
        lastVaultBalance := some (roundReading env config w).1 } }) := by
  obtain ⟨bps, outside, events, hfetch⟩ := @fetchYieldBps_eq H env w config.oracleContract
  have hread : roundReading env config w =
      vaultBalanceOr env w.now config.yieldVault w.storage.loadLastVaultBalance outside := by
    unfold roundReading; rw [hfetch]
  unfold snapshotYield roundYield
  dsimp only
  rw [hfetch, hread]
  obtain ⟨events', hacc⟩ := @accruedYield_eq H { w with
      outside :=
        (vaultBalanceOr env w.now config.yieldVault w.storage.loadLastVaultBalance outside).2
      events := events } w.storage.loadLastVaultBalance
    (vaultBalanceOr env w.now config.yieldVault w.storage.loadLastVaultBalance outside).1
  exact ⟨bps, events', by dsimp only; rw [hacc]; rfl⟩

theorem concludeRound_eq {round : ℕ} {res : RoundResolution} : ∃ events,
    concludeRound config round res w = { w with
      events := events
      storage := { w.storage with
        config := some { config with
          roundCount := round, state := if res.survivors ≤ 1 then .Finished else .Open }
        choice := fun k => if k.2 = round ∧ k.1 ∈ w.storage.loadAllPlayers then none
          else w.storage.choice k
        commitment := fun k => if k.2 = round ∧ k.1 ∈ w.storage.loadAllPlayers then none
          else w.storage.commitment k
        winner := if res.survivors ≤ 1 then res.winner.or w.storage.winner else w.storage.winner
        leaderboard := if res.survivors ≤ 1 then (buildLeaderboard w.storage).leaderboard
          else w.storage.leaderboard
        creatorActivePools := if res.survivors ≤ 1 then w.storage.poolsDecremented config.admin
          else w.storage.creatorActivePools
        reentrancyGuard := none } } := by
  unfold concludeRound
  by_cases h1 : res.survivors ≤ 1
  · cases hw : res.winner with
    | none =>
      simp only [h1, decide_true, if_true, ArenaStorage.decrementCreatorActivePools_eq,
        ArenaStorage.clearRoundData_eq]
      exact ⟨_, rfl⟩
    | some winner =>
      simp only [h1, decide_true, if_true, ArenaStorage.decrementCreatorActivePools_eq,
        ArenaStorage.clearRoundData_eq]
      exact ⟨_, rfl⟩
  · simp only [h1, decide_false, Bool.false_eq_true, if_false, reduceCtorEq,
      ArenaStorage.clearRoundData_eq]
    exact ⟨_, rfl⟩

/-- The player states after `round` is resolved. -/
def playersAfter (s : ArenaStorage) (round : ℕ) : Address → Option PlayerState := fun p =>
  if p ∈ s.loadAllPlayers ∧ (s.playerState p).active = true then
    some (outcome (roundTally s round) round s p)
  else s.player p

/-- The storage after `resolve_round`, over a duplicate-free player list. -/
theorem settleRound_eq (h : w.storage.loadAllPlayers.Nodup) :
    ∃ bps eliminated events, settleRound env config
        { w with storage := { w.storage with reentrancyGuard := some true } } = { w with
      outside := (roundReading env config w).2
      events := events
      storage := { w.storage with
        config := some { config with
          cumulativeYield := satAddI128 config.cumulativeYield (roundYield env config w)
          roundCount := config.round
          state := if (survivorsOf w.storage config.round).length ≤ 1 then .Finished else .Open }
        player := playersAfter w.storage config.round
        choice := fun k => if k.2 = config.round ∧ k.1 ∈ w.storage.loadAllPlayers then none
          else w.storage.choice k
        commitment := fun k => if k.2 = config.round ∧ k.1 ∈ w.storage.loadAllPlayers then none
          else w.storage.commitment k
        roundYieldBps := Function.update w.storage.roundYieldBps config.round (some bps)
        yieldSnapshot := Function.update w.storage.yieldSnapshot config.round
          (some ⟨config.round, bps, roundYield env config w⟩)
        lastVaultBalance := some (roundReading env config w).1
        roundResult := Function.update w.storage.roundResult config.round
          (some ⟨config.round, eliminated, (survivorsOf w.storage config.round).length,
            ⟨config.round, bps, roundYield env config w⟩⟩)
        winner := if (survivorsOf w.storage config.round).length = 1 then
            (survivorsOf w.storage config.round).head?
          else w.storage.winner
        leaderboard := if (survivorsOf w.storage config.round).length ≤ 1 then
            (buildLeaderboard { w.storage with
              player := playersAfter w.storage config.round }).leaderboard
          else w.storage.leaderboard
        creatorActivePools := if (survivorsOf w.storage config.round).length ≤ 1 then
            w.storage.poolsDecremented config.admin
          else w.storage.creatorActivePools
        reentrancyGuard := none } } := by
  obtain ⟨bps, events, hsnap⟩ := @snapshotYield_eq H env
    { w with storage := { w.storage with reentrancyGuard := some true } } config config.round
  rw [roundYield_guarded, roundReading_guarded] at hsnap
  have hnested : ∀ k : Address × ℕ,
      (if k.2 = config.round ∧ k.1 ∈ w.storage.loadAllPlayers then none
        else if k.2 = config.round ∧ k.1 ∈ w.storage.loadAllPlayers ∧
            dropsOut (roundTally w.storage config.round) config.round w.storage k.1 then none
          else w.storage.choice k) =
        if k.2 = config.round ∧ k.1 ∈ w.storage.loadAllPlayers then none
        else w.storage.choice k := by
    intro k
    split_ifs with h1 h2
    · rfl
    · exact absurd ⟨h2.1, h2.2.1⟩ h1
    · rfl
  unfold settleRound
  dsimp only
  rw [show satAddU32 config.roundCount 1 = config.round from rfl, hsnap]
  unfold settlePlayers
  dsimp only
  have hres := @resolvePlayers_eq { w.storage with
        reentrancyGuard := some true
        roundYieldBps := Function.update w.storage.roundYieldBps config.round (some bps)
        yieldSnapshot := Function.update w.storage.yieldSnapshot config.round
          (some ⟨config.round, bps, roundYield env config w⟩)
        lastVaultBalance := some (roundReading env config w).1 } events config.round h
  generalize resolvePlayers _ _ _ = R at hres ⊢
  obtain ⟨res, r⟩ := R
  obtain ⟨rfl, hsurv, hwin⟩ := hres
  replace hsurv : res.survivors = (survivorsOf w.storage config.round).length := hsurv
  replace hwin : ∀ p, res.winner = some p ↔ survivorsOf w.storage config.round = [p] := hwin
  have hw : (if res.survivors ≤ 1 then res.winner.or w.storage.winner else w.storage.winner) =
      if (survivorsOf w.storage config.round).length = 1 then
        (survivorsOf w.storage config.round).head?
      else w.storage.winner := by
    rw [hsurv]
    cases hl : survivorsOf w.storage config.round with
    | nil =>
      have hnone : res.winner = none := by
        rw [Option.eq_none_iff_forall_ne_some]
        intro p hp
        rw [hwin, hl] at hp
        cases hp
      simp [hnone]
    | cons p l =>
      cases l with
      | nil => simp [(hwin p).mpr hl]
      | cons q l => simp
  obtain ⟨events', hcon⟩ := @concludeRound_eq H _ _ config.round res
  refine ⟨bps, res.eliminated, events', ?_⟩
  refine hcon.trans ?_
  dsimp only [ArenaStorage.saveRoundResult, Resolving.after]
  rw [hw, hsurv]
  congr 1
  congr 1
  exact funext hnested

/-- What is recorded about the players of a round. -/
theorem roundResult_settlePlayers {round : ℕ} {snapshot : YieldSnapshot}
    (h : w.storage.loadAllPlayers.Nodup) :
    (settlePlayers config round snapshot w).storage.roundResult round = some
      ⟨round, (droppedFrom w.storage round).length, (survivorsOf w.storage round).length,
        snapshot⟩ := by
  have helim := @eliminated_resolvePlayers w.storage w.events round h
  have hsurv := (@resolvePlayers_eq w.storage w.events round h).2.1
  unfold settlePlayers
  dsimp only
  generalize resolvePlayers w.storage w.events round = R at helim hsurv ⊢
  obtain ⟨events', hcon⟩ := @concludeRound_eq H
    { w with
      storage := R.2.storage.saveRoundResult round
        ⟨round, R.1.eliminated, R.1.survivors, snapshot⟩
      events := R.2.events }
    { config with cumulativeYield := satAddI128 config.cumulativeYield snapshot.accrued } round R.1
  rw [hcon, ← helim, ← hsurv]
  exact Function.update_self _ _ _

theorem roundResult_settleRound (h : w.storage.loadAllPlayers.Nodup) : ∃ snapshot,
    (settleRound env config w).storage.roundResult config.round = some
      ⟨config.round, (droppedFrom w.storage config.round).length,
        (survivorsOf w.storage config.round).length, snapshot⟩ := by
  obtain ⟨bps, events, hsnap⟩ := @snapshotYield_eq H env w config config.round
  refine ⟨⟨config.round, bps, roundYield env config w⟩, ?_⟩
  unfold settleRound
  dsimp only
  rw [show satAddU32 config.roundCount 1 = config.round from rfl, hsnap]
  exact roundResult_settlePlayers h

end Settle

end InverseArena.Arena
