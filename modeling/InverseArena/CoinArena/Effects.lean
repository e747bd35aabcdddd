import InverseArena.CoinArena.Contract

/-!
# What a successful call does

One rule per entry point: its guards and the world it leaves behind, with the
token transfers as premises. The entry points that only tune the configuration
share one rule, and so do the two that write the entries of the missing
functions.

Results:
* `exec_effect`: a successful call follows a rule.
* `firstPass_activePlayers`: whose choices `resolve_round` counts.
* `claimRefund_eq_ok`: exactly when a refund succeeds.
-/

namespace InverseArena.CoinArena

open Host KeyedMap MachineInt

variable {G H : Type}

/-- The entry points that only tune the configuration. -/
def Call.isTuning : Call → Bool
  | .pause _ | .unpause | .updateTreasury _ | .setCreationCooldown _ | .setSlashRate _ => true
  | _ => false

/-- The entry points that write the entries of the missing functions. -/
def Call.isGlobal : Call → Bool
  | .updateRoundBounds _ _ | .updatePlatformFee _ => true
  | _ => false

/-- The calls that resolve a round. -/
def Call.isResolution : Call → Bool
  | .resolveRound | .autoResolve => true
  | _ => false

/-- The configuration stored by `initialize`. -/
def InitializeArgs.config (a : InitializeArgs) (env : Env G H) (w : World G H) : ArenaConfig :=
  { admin := a.admin, token := a.token, entryFee := a.entryFee, maxPlayers := a.maxPlayers
    joinDeadline := a.joinDeadline, state := .Open, paused := false, playerCount := 0
    treasuryAddress := a.treasuryAddress, lastCreationTimestamp := w.now
    creationCooldownSeconds := a.creationCooldownSeconds, creatorStake := 0
    slashRateBps := 5000, platformFeeBps := env.getPlatformFeeBps w.storage.globals }

/-- The join that fills the arena. -/
def ArenaConfig.Fills (config : ArenaConfig) : Prop := config.maxPlayers ≤ config.playerCount + 1

instance (config : ArenaConfig) : Decidable config.Fills :=
  inferInstanceAs (Decidable (config.maxPlayers ≤ config.playerCount + 1))

/-- The round of a commitment made or revealed now. -/
def World.round (w : World G H) : ℕ := w.storage.getRound

/-- The pot of `claim`, split into the platform fee and the prize. -/
structure Split (config : ArenaConfig) (platformFee prize : ℤ) : Prop where
  pot_le : config.playerCount * config.entryFee ≤ i128Max
  fee : platformFee = (config.playerCount * config.entryFee * config.platformFeeBps).tdiv 10000
  prize : prize = config.playerCount * config.entryFee - platformFee

/-- What `withdraw_creator_stake` pays of `stake`. -/
def ArenaConfig.withdrawable (config : ArenaConfig) (stake : ℤ) : ℤ :=
  if config.state ≠ .Finished then stake - (stake * config.slashRateBps).tdiv 10000 else stake

theorem withdrawable_le {config : ArenaConfig} {stake : ℤ} (h : 0 ≤ stake) :
    config.withdrawable stake ≤ stake := by
  unfold ArenaConfig.withdrawable
  split_ifs
  · have hslashed : 0 ≤ (stake * config.slashRateBps).tdiv 10000 :=
      Int.tdiv_nonneg (by positivity) (by norm_num)
    omega
  · exact le_rfl

theorem rel_self {α : Type} {r : α → α → Prop} (h : ∀ x, r x x) (o : Option α) :
    Option.Rel r o o := by
  cases o with
  | none => exact .none
  | some x => exact .some (h x)

/-- A successful call `c` authorized by `auths` takes `w` to the third argument. -/
inductive Effect (env : Env G H) (auths : List Address) : World G H → Call → World G H → Prop
  | initialized {w : World G H} {a : InitializeArgs} {stats : Option GlobalStats} :
      4000000 ≤ a.entryFee → a.entryFee ≤ 1000000000000 → w.now < a.joinDeadline →
      Effect env auths w (.initializeArena a) { w with
        events := w.events ++ [.arenaInitialized a.admin]
        storage := { w.storage with config := some (a.config env w), globalStats := stats } }
  | configured {w : World G H} {fee : Option ℤ} {max deadline : Option ℕ} {config : ArenaConfig} :
      w.storage.config = some config → config.admin ∈ auths → config.state = .Open →
      (∀ x ∈ fee, 0 < x) →
      Effect env auths w (.configureArena fee max deadline) { w with
        events := w.events ++ [.arenaConfigured]
        storage := { w.storage with
          config := some { config with
            entryFee := fee.getD config.entryFee
            maxPlayers := max.getD config.maxPlayers
            joinDeadline := deadline.getD config.joinDeadline } } }
  | tuned {w : World G H} {c : Call} {config : ArenaConfig} {config' : Option ArenaConfig}
      {paused : Bool} {treasury : Address} {cooldown slashRate : ℕ} {events : List ArenaEvent} :
      c.isTuning = true → w.storage.config = some config → config.admin ∈ auths →
      config' = some { config with
        paused := paused, treasuryAddress := treasury, creationCooldownSeconds := cooldown
        slashRateBps := slashRate } →
      (treasury = config.treasuryAddress ∨ c = .updateTreasury treasury) →
      (slashRate = config.slashRateBps ∨ slashRate ≤ 10000) →
      Effect env auths w c { w with
        events := events, storage := { w.storage with config := config' } }
  | regulated {w : World G H} {c : Call} {globals : G} {events : List ArenaEvent} :
      c.isGlobal = true →
      Effect env auths w c { w with
        events := events, storage := { w.storage with globals := globals } }
  | started {w : World G H} {config : ArenaConfig} :
      w.storage.config = some config → config.admin ∈ auths → config.paused = false →
      config.state = .Open →
      Effect env auths w .startGame { w with
        events := w.events ++ [.gameStarted]
        storage := { w.storage with config := some { config with state := .InProgress } } }
  | finished {w : World G H} {config : ArenaConfig} :
      w.storage.config = some config → config.admin ∈ auths → config.paused = false →
      config.state = .InProgress →
      Effect env auths w .finishGame { w with
        events := w.events ++ [.gameFinished]
        storage := { w.storage with config := some { config with state := .Finished } } }
  | cancelled {w : World G H} {c : Call} {config : ArenaConfig} :
      w.storage.config = some config → config.state = .Open →
      (c = .cancelArena ∧ config.admin ∈ auths ∨ c = .expireArena ∧ config.joinDeadline < w.now) →
      Effect env auths w c { w with
        events := w.events ++ [.arenaCancelled]
        storage := { w.storage with config := some { config with state := .Cancelled } } }
  | proposed {w : World G H} {newAdmin : Address} {config : ArenaConfig} :
      w.storage.config = some config → config.admin ∈ auths →
      Effect env auths w (.proposeAdmin newAdmin) { w with
        events := w.events ++ [.adminTransferProposed config.admin newAdmin]
        storage := { w.storage with pendingAdmin := some newAdmin } }
  | accepted {w : World G H} {pending : Address} {config : ArenaConfig} :
      w.storage.config = some config → w.storage.pendingAdmin = some pending → pending ∈ auths →
      Effect env auths w .acceptAdmin { w with
        events := w.events ++ [.adminTransferAccepted pending]
        storage := { w.storage with
          config := some { config with admin := pending }, pendingAdmin := none } }
  | joined {w : World G H} {player : Address} {config : ArenaConfig} {outside : H}
      {stats : Option GlobalStats} {round deadline : Option ℕ} {events : List ArenaEvent} :
      w.storage.config = some config → config.paused = false → config.state = .Open →
      config.playerCount < config.maxPlayers → w.now < config.joinDeadline → player ∈ auths →
      env.transfer w.now config.token player env.here config.entryFee w.outside = some outside →
      round = (if config.Fills then some 1 else w.storage.round) →
      deadline = (if config.Fills then some (satAddU64 config.joinDeadline 86400)
        else w.storage.roundDeadline) →
      Effect env auths w (.join player) { w with
        outside := outside
        transfers := w.transfers ++ [⟨config.token, player, env.here, config.entryFee⟩]
        events := events
        storage := { w.storage with
          config := some { config with playerCount := config.playerCount + 1 }
          players := some (w.storage.loadAllPlayers ++ [player])
          active := Function.update w.storage.active player (some true)
          globalStats := stats
          prizePool := some (satAddI128 w.storage.getPrizePool config.entryFee)
          round := round
          roundDeadline := deadline } }
  | chosen {w : World G H} {player : Address} {choice : Choice} {config : ArenaConfig} :
      w.storage.config = some config → config.paused = false → config.state = .InProgress →
      player ∈ w.storage.loadAllPlayers → w.storage.isPlayerActive player = true →
      player ∈ auths →
      Effect env auths w (.submitChoice player choice) { w with
        events := w.events ++ [.choiceSubmitted player]
        storage := { w.storage with
          choice := Function.update w.storage.choice player (some choice) } }
  | roundStarted {w : World G H} {deadline : ℕ} {config : ArenaConfig} :
      w.storage.config = some config → config.admin ∈ auths → config.paused = false →
      config.state = .InProgress → w.now < deadline →
      Effect env auths w (.startRound deadline) { w with
        events := w.events ++ [.roundStarted (w.round + 1) deadline]
        storage := { w.storage with
          round := some (w.round + 1), roundDeadline := some deadline } }
  | committed {w : World G H} {player : Address} {hash : BytesN 32} {config : ArenaConfig} :
      w.storage.config = some config → config.paused = false → config.state = .InProgress →
      player ∈ w.storage.loadAllPlayers → w.storage.isPlayerActive player = true →
      player ∈ auths → w.storage.commitHash (player, w.round) = none →
      Effect env auths w (.commitChoice player hash) { w with
        events := w.events ++ [.commitSubmitted player]
        storage := { w.storage with
          commitHash := Function.update w.storage.commitHash (player, w.round) (some hash) } }
  | revealed {w : World G H} {player : Address} {choice : Choice} {salt : BytesN 32}
      {config : ArenaConfig} :
      w.storage.config = some config → config.paused = false → config.state = .InProgress →
      player ∈ w.storage.loadAllPlayers → w.storage.isPlayerActive player = true →
      player ∈ auths →
      w.storage.commitHash (player, w.round) = some (env.keccak256 (preimage choice salt)) →
      w.storage.isRevealed player w.round = false →
      Effect env auths w (.revealChoice player choice salt) { w with
        events := w.events ++ [.revealSubmitted player]
        storage := { w.storage with
          choice := Function.update w.storage.choice player (some choice)
          revealed := Function.update w.storage.revealed (player, w.round) (some true) } }
  | resolved {w : World G H} {c : Call} {config : ArenaConfig} {state : GameState}
      {config' : Option ArenaConfig} {active : Address → Option Bool}
      {profile : Address → Option PlayerProfile} {stats : Option GlobalStats}
      {winner : Option Address} {events : List ArenaEvent} :
      c.isResolution = true → w.storage.config = some config → config.paused = false →
      config.state = .InProgress → config' = some { config with state := state } →
      (∀ a, active a = w.storage.active a ∨
        a ∈ w.storage.loadAllPlayers ∧ w.storage.isPlayerActive a = true ∧ active a = some false) →
      (state = .InProgress ∧ winner = w.storage.winner ∨ state = .Finished ∧
        (winner = w.storage.winner ∨ ∃ a ∈ w.storage.loadAllPlayers, winner = some a)) →
      Effect env auths w c { w with
        events := events
        storage := { w.storage with
          config := config'
          active := active
          profile := profile
          globalStats := stats
          choice := without w.storage.choice w.storage.loadAllPlayers
          round := some (w.round + 1)
          winner := winner } }
  | claimed {w : World G H} {winner : Address} {config : ArenaConfig} {platformFee prize : ℤ}
      {between outside : H} {profile : Address → Option PlayerProfile} :
      winner ∈ auths → w.storage.config = some config → config.paused = false →
      config.state = .Finished → w.storage.isPrizeClaimed = false →
      w.storage.winner = some winner → Split config platformFee prize →
      env.transfer w.now config.token env.here config.admin platformFee w.outside = some between →
      env.transfer w.now config.token env.here winner prize between = some outside →
      Effect env auths w (.claim winner) { w with
        outside := outside
        transfers := w.transfers ++ [⟨config.token, env.here, config.admin, platformFee⟩]
          ++ [⟨config.token, env.here, winner, prize⟩]
        events := w.events ++ [.prizeClaimed winner]
        storage := { w.storage with prizeClaimed := some true, profile := profile } }
  | cleaned {w : World G H} {config : ArenaConfig} :
      w.storage.config = some config → config.admin ∈ auths →
      config.state = .Finished ∨ config.state = .Cancelled →
      Effect env auths w .cleanupArena { w with storage := w.storage.cleanupArenaData }
  | refunded {w : World G H} {player : Address} {config : ArenaConfig} {outside : H} :
      player ∈ auths → w.storage.config = some config → config.state = .Cancelled →
      w.storage.isRefundClaimed player = false → player ∈ w.storage.loadAllPlayers →
      env.transfer w.now config.token env.here player config.entryFee w.outside = some outside →
      Effect env auths w (.claimRefund player) { w with
        outside := outside
        transfers := w.transfers ++ [⟨config.token, env.here, player, config.entryFee⟩]
        events := w.events ++ [.refundClaimed player]
        storage := { w.storage with
          refundClaimed := Function.update w.storage.refundClaimed player (some true) } }
  | staked {w : World G H} {creator : Address} {amount : ℤ} {config : ArenaConfig} {outside : H} :
      creator ∈ auths → 0 < amount → w.storage.loadCreatorStake ≤ 0 →
      w.storage.config = some config →
      env.transfer w.now config.token creator env.here amount w.outside = some outside →
      Effect env auths w (.depositCreatorStake creator amount) { w with
        outside := outside
        transfers := w.transfers ++ [⟨config.token, creator, env.here, amount⟩]
        events := w.events ++ [.creatorStakeDeposited creator amount amount]
        storage := { w.storage with
          config := some { config with creatorStake := amount }
          creatorStake := some amount } }
  | unstaked {w : World G H} {creator : Address} {config : ArenaConfig} {outside : H}
      {events : List ArenaEvent} :
      creator ∈ auths → 0 < w.storage.loadCreatorStake → w.storage.config = some config →
      env.transfer w.now config.token env.here creator
        (config.withdrawable w.storage.loadCreatorStake) w.outside = some outside →
      Effect env auths w (.withdrawCreatorStake creator) { w with
        outside := outside
        transfers := w.transfers ++
          [⟨config.token, env.here, creator, config.withdrawable w.storage.loadCreatorStake⟩]
        events := events
        storage := { w.storage with
          config := some { config with creatorStake := 0 }
          creatorStake := some 0 } }
  | yielded {w : World G H} {adapter : Address} {yieldAmount : ℤ} {label : String}
      {config : ArenaConfig} {stats : Option GlobalStats} {counter : Option ℕ}
      {records : ℕ → Option RwaYieldRecord} :
      adapter ∈ auths → 0 < yieldAmount → w.storage.config = some config →
      config.state ≠ .Finished →
      Effect env auths w (.receiveRwaYield adapter yieldAmount label) { w with
        events := w.events ++ [.rwaYieldReceived yieldAmount]
        storage := { w.storage with
          prizePool := some (satAddI128 w.storage.getPrizePool yieldAmount)
          globalStats := stats
          rwaCounter := counter
          rwaYield := records } }

/-! ## Successful calls follow the rules -/

section Forward

variable {env : Env G H} {auths : List Address} {w w' : World G H}

theorem transfer_eq_ok {token sender recipient : Address} {amount : ℤ} :
    w.transfer env token sender recipient amount = .ok w' ↔
      ∃ outside, env.transfer w.now token sender recipient amount w.outside = some outside ∧
        { w with
          outside := outside
          transfers := w.transfers ++ [⟨token, sender, recipient, amount⟩] } = w' := by
  simp only [World.transfer, Fallible.bind_eq_ok, unwrap_eq_ok, Fallible.pure_eq_ok]

theorem requireActivePlayer_eq_ok {s : ArenaStorage G} {player : Address} {u : Unit} :
    requireActivePlayer s player = .ok u ↔
      player ∈ s.loadAllPlayers ∧ s.isPlayerActive player = true := by
  simp only [requireActivePlayer, Fallible.bind_eq_ok, check_eq_ok, exists_const]

theorem initializeArena_effect {a : InitializeArgs} (h : initializeArena env a w = .ok w') :
    Effect env auths w (.initializeArena a) w' := by
  simp only [initializeArena, validateEntryFee, validateDeadline, validateMaxPlayers,
    Fallible.bind_eq_ok, check_eq_ok, Fallible.pure_eq_ok, exists_const, not_or, not_lt, not_le,
    gt_iff_lt] at h
  obtain ⟨-, hdeadline, -, u, -, ⟨hmin, hmax⟩, rfl⟩ := h
  exact .initialized hmin hmax hdeadline

theorem administer_eq_ok {guard : ArenaConfig → Result ArenaError Unit}
    {update : ArenaConfig → ArenaConfig} {event : ArenaConfig → ArenaEvent} :
    administer auths guard update event w = .ok w' ↔
      ∃ config, w.storage.config = some config ∧ config.admin ∈ auths ∧
        guard config = .ok () ∧
        { w with
          storage := { w.storage with config := some (update config) }
          events := w.events ++ [event config] } = w' := by
  simp only [administer, ArenaStorage.loadConfig, Fallible.bind_eq_ok, requireAuth_eq_ok,
    okOr_eq_ok, Fallible.pure_eq_ok, exists_const]
  constructor
  · rintro ⟨config, hc, ha, u, hg, rfl⟩
    exact ⟨config, hc, ha, hg, rfl⟩
  · rintro ⟨config, hc, ha, hg, rfl⟩
    exact ⟨config, hc, ha, (), hg, rfl⟩

theorem configureArena_effect {fee : Option ℤ} {max deadline : Option ℕ}
    (h : configureArena auths fee max deadline w = .ok w') :
    Effect env auths w (.configureArena fee max deadline) w' := by
  simp only [configureArena, ArenaStorage.loadConfig, Fallible.bind_eq_ok, requireAuth_eq_ok,
    check_eq_ok, okOr_eq_ok, Fallible.pure_eq_ok, exists_const] at h
  obtain ⟨config, hc, ha, hopen, u, hfee, v, -, rfl⟩ := h
  refine .configured hc ha hopen fun x hx => ?_
  obtain rfl := Option.mem_def.mp hx
  simpa [ifProvided, validateEntryFee] using hfee

theorem tuning_effect {c : Call} (ht : c.isTuning = true) (h : exec env auths c w = .ok w') :
    Effect env auths w c w' := by
  cases c with
  | pause reason =>
    obtain ⟨config, hc, ha, -, rfl⟩ := administer_eq_ok.mp h
    exact .tuned ht hc ha rfl (.inl rfl) (.inl rfl)
  | unpause =>
    obtain ⟨config, hc, ha, -, rfl⟩ := administer_eq_ok.mp h
    exact .tuned ht hc ha rfl (.inl rfl) (.inl rfl)
  | updateTreasury newTreasury =>
    obtain ⟨config, hc, ha, -, rfl⟩ := administer_eq_ok.mp h
    exact .tuned ht hc ha rfl (.inr rfl) (.inl rfl)
  | setCreationCooldown cooldownSeconds =>
    obtain ⟨config, hc, ha, -, rfl⟩ := administer_eq_ok.mp h
    exact .tuned ht hc ha rfl (.inl rfl) (.inl rfl)
  | setSlashRate slashRateBps =>
    obtain ⟨config, hc, ha, hg, rfl⟩ := administer_eq_ok.mp h
    exact .tuned ht hc ha rfl (.inl rfl) (.inr (by simpa using hg))
  | _ => cases ht

theorem global_effect {c : Call} (hg : c.isGlobal = true) (h : exec env auths c w = .ok w') :
    Effect env auths w c w' := by
  cases c with
  | updateRoundBounds lo hi =>
    simp only [exec, updateRoundBounds, ArenaStorage.loadConfig, Fallible.bind_eq_ok,
      requireAuth_eq_ok, check_eq_ok, okOr_eq_ok, Fallible.pure_eq_ok, exists_const] at h
    obtain ⟨config, -, -, -, rfl⟩ := h
    exact .regulated hg
  | updatePlatformFee newFeeBps =>
    simp only [exec, updatePlatformFee, Fallible.bind_eq_ok, Fallible.pure_eq_ok] at h
    obtain ⟨globals, -, rfl⟩ := h
    exact .regulated hg
  | _ => cases hg

theorem startGame_effect (h : startGame auths w = .ok w') :
    Effect env auths w .startGame w' := by
  obtain ⟨config, hc, ha, hg, rfl⟩ := administer_eq_ok.mp h
  simp only [Fallible.bind_eq_ok, requireNotPaused_eq_ok, check_eq_ok, exists_const] at hg
  exact .started hc ha hg.1 hg.2

theorem finishGame_effect (h : finishGame auths w = .ok w') :
    Effect env auths w .finishGame w' := by
  obtain ⟨config, hc, ha, hg, rfl⟩ := administer_eq_ok.mp h
  simp only [Fallible.bind_eq_ok, requireNotPaused_eq_ok, check_eq_ok, exists_const] at hg
  exact .finished hc ha hg.1 hg.2

theorem cancelArena_effect (h : cancelArena auths w = .ok w') :
    Effect env auths w .cancelArena w' := by
  obtain ⟨config, hc, ha, hg, rfl⟩ := administer_eq_ok.mp h
  exact .cancelled hc (check_eq_ok.mp hg) (.inl ⟨rfl, ha⟩)

theorem expireArena_effect (h : expireArena w = .ok w') :
    Effect env auths w .expireArena w' := by
  simp only [expireArena, ArenaStorage.loadConfig, Fallible.bind_eq_ok, check_eq_ok, okOr_eq_ok,
    Fallible.pure_eq_ok, exists_const, not_le] at h
  obtain ⟨config, hc, hopen, hnow, rfl⟩ := h
  exact .cancelled hc hopen (.inr ⟨rfl, hnow⟩)

theorem proposeAdmin_effect {newAdmin : Address} (h : proposeAdmin auths newAdmin w = .ok w') :
    Effect env auths w (.proposeAdmin newAdmin) w' := by
  simp only [proposeAdmin, ArenaStorage.loadConfig, Fallible.bind_eq_ok, requireAuth_eq_ok,
    okOr_eq_ok, Fallible.pure_eq_ok, exists_const] at h
  obtain ⟨config, hc, ha, rfl⟩ := h
  exact .proposed hc ha

theorem acceptAdmin_effect (h : acceptAdmin auths w = .ok w') :
    Effect env auths w .acceptAdmin w' := by
  simp only [acceptAdmin, ArenaStorage.loadConfig, ArenaStorage.getPendingAdmin,
    Fallible.bind_eq_ok, requireAuth_eq_ok, okOr_eq_ok, Fallible.pure_eq_ok, exists_const] at h
  obtain ⟨config, hc, pending, hp, ha, rfl⟩ := h
  exact .accepted hc hp ha

theorem join_effect {player : Address} (h : join env auths player w = .ok w') :
    Effect env auths w (.join player) w' := by
  simp only [join, ArenaStorage.loadConfig, Fallible.bind_eq_ok, requireAuth_eq_ok, check_eq_ok,
    okOr_eq_ok, unwrap_eq_ok, requireNotPaused_eq_ok, transfer_eq_ok, exists_const, ge_iff_le,
    not_le] at h
  obtain ⟨config, hc, hp, hopen, hroom, hnow, ha, w₁, ⟨outside, htr, rfl⟩, count, hcount, h⟩ := h
  obtain rfl := checkedAddU32_eq_some hcount
  split_ifs at h with hfull
  · obtain rfl := Fallible.pure_eq_ok.mp h
    have hfills : config.Fills := hfull
    exact .joined hc hp hopen hroom hnow ha htr (if_pos hfills).symm (if_pos hfills).symm
  · obtain rfl := Fallible.pure_eq_ok.mp h
    have hfills : ¬ config.Fills := hfull
    exact .joined hc hp hopen hroom hnow ha htr (if_neg hfills).symm (if_neg hfills).symm

theorem submitChoice_effect {player : Address} {choice : Choice}
    (h : submitChoice auths player choice w = .ok w') :
    Effect env auths w (.submitChoice player choice) w' := by
  simp only [submitChoice, ArenaStorage.loadConfig, Fallible.bind_eq_ok, requireAuth_eq_ok,
    check_eq_ok, okOr_eq_ok, requireNotPaused_eq_ok, requireActivePlayer_eq_ok,
    Fallible.pure_eq_ok, exists_const] at h
  obtain ⟨config, hc, hp, hprog, ⟨hmem, hactive⟩, ha, rfl⟩ := h
  exact .chosen hc hp hprog hmem hactive ha

theorem startRound_effect {deadline round : ℕ}
    (h : startRound env auths deadline w = .ok (round, w')) :
    Effect env auths w (.startRound deadline) w' := by
  simp only [startRound, validateDeadline, ArenaStorage.loadConfig, Fallible.bind_eq_ok,
    requireAuth_eq_ok, check_eq_ok, okOr_eq_ok, unwrap_eq_ok, requireNotPaused_eq_ok,
    Fallible.pure_eq_ok, exists_const, not_le, Prod.mk.injEq] at h
  obtain ⟨config, hc, ha, hp, hprog, hnow, -, r, hr, -, rfl⟩ := h
  obtain rfl := checkedAddU32_eq_some hr
  exact .roundStarted hc ha hp hprog hnow

theorem commitChoice_effect {player : Address} {hash : BytesN 32}
    (h : commitChoice auths player hash w = .ok w') :
    Effect env auths w (.commitChoice player hash) w' := by
  simp only [commitChoice, ArenaStorage.loadConfig, ArenaStorage.loadCommitHash,
    Fallible.bind_eq_ok, requireAuth_eq_ok, check_eq_ok, okOr_eq_ok, requireNotPaused_eq_ok,
    requireActivePlayer_eq_ok, Fallible.pure_eq_ok, exists_const, Option.isSome_eq_false_iff,
    Option.isNone_iff_eq_none] at h
  obtain ⟨config, hc, hp, hprog, ⟨hmem, hactive⟩, ha, hnone, rfl⟩ := h
  exact .committed hc hp hprog hmem hactive ha hnone

theorem revealChoice_effect {player : Address} {choice : Choice} {salt : BytesN 32}
    (h : revealChoice env auths player choice salt w = .ok w') :
    Effect env auths w (.revealChoice player choice salt) w' := by
  simp only [revealChoice, ArenaStorage.loadConfig, ArenaStorage.loadCommitHash,
    Fallible.bind_eq_ok, requireAuth_eq_ok, check_eq_ok, okOr_eq_ok, requireNotPaused_eq_ok,
    requireActivePlayer_eq_ok, Fallible.pure_eq_ok, exists_const] at h
  obtain ⟨config, hc, hp, hprog, ⟨hmem, hactive⟩, ha, hash, hcom, hrev, rfl, rfl⟩ := h
  exact .revealed hc hp hprog hmem hactive ha hcom hrev

/-! ### Resolving a round -/

/-- What the loops of `resolve_round` leave alone, and how they eliminate. -/
structure Tallied (w : World G H) (t : Tally G H) : Prop where
  rest : t.world = { w with
    events := t.world.events
    storage := { w.storage with
      active := t.world.storage.active, profile := t.world.storage.profile } }
  active : ∀ a, t.world.storage.active a = w.storage.active a ∨
    a ∈ w.storage.loadAllPlayers ∧ w.storage.isPlayerActive a = true ∧
      t.world.storage.active a = some false
  players : ∀ a ∈ t.activePlayers, a ∈ w.storage.loadAllPlayers ∧
    w.storage.isPlayerActive a = true

variable {t : Tally G H} {a : Address}

theorem Tallied.eliminate (h : Tallied w t) (ha : a ∈ w.storage.loadAllPlayers)
    (hactive : w.storage.isPlayerActive a = true) :
    Tallied w { t with world := t.world.eliminate a, eliminated := t.eliminated + 1 } where
  rest := by
    show t.world.eliminate a = _
    unfold World.eliminate
    rw [h.rest]
    rfl
  active b := by
    show Function.update t.world.storage.active a (some false) b = _ ∨ _ ∧ _ ∧
      Function.update t.world.storage.active a (some false) b = _
    by_cases hb : b = a
    · subst hb
      rw [Function.update_self]
      exact .inr ⟨ha, hactive, rfl⟩
    · rw [Function.update_of_ne hb]
      exact h.active b
  players := h.players

theorem Tallied.eliminateAfk (h : Tallied w t) (ha : a ∈ w.storage.loadAllPlayers) :
    Tallied w (eliminateAfk t a) := by
  unfold CoinArena.eliminateAfk
  split_ifs with hactive hafk
  · refine h.eliminate ha ?_
    unfold ArenaStorage.isPlayerActive at hactive ⊢
    rcases h.active a with hsame | ⟨-, hold, -⟩
    · rwa [← hsame]
    · exact hold
  · refine ⟨h.rest, h.active, fun b hb => ?_⟩
    rcases List.mem_append.mp hb with hb | hb
    · exact h.players b hb
    · obtain rfl := List.mem_singleton.mp hb
      refine ⟨ha, ?_⟩
      unfold ArenaStorage.isPlayerActive at hactive ⊢
      rcases h.active b with hsame | ⟨-, hold, -⟩
      · rwa [← hsame]
      · exact hold
  · exact h

theorem Tallied.keepSide {side : Choice} (h : Tallied w t) (ha : a ∈ w.storage.loadAllPlayers)
    (hactive : w.storage.isPlayerActive a = true) : Tallied w (keepSide side t a) := by
  unfold CoinArena.keepSide
  split
  · split_ifs
    · exact h.eliminate ha hactive
    · exact ⟨h.rest, h.active, h.players⟩
  · exact h

theorem firstPass_tallied (w : World G H) : Tallied w (firstPass w) := by
  have hstart : Tallied w (⟨[], 0, 0, w⟩ : Tally G H) :=
    ⟨rfl, fun _ => .inl rfl, fun _ hb => absurd hb List.not_mem_nil⟩
  exact List.foldlRecOn _ _ hstart fun t ht a ha => ht.eliminateAfk ha

theorem Tallied.decideRound (h : Tallied w t) : Tallied w (decideRound t) := by
  have hside : ∀ side, Tallied w (t.activePlayers.foldl (CoinArena.keepSide side) t) := fun side =>
    List.foldlRecOn _ _ h fun u hu a ha => hu.keepSide (h.players a ha).1 (h.players a ha).2
  unfold CoinArena.decideRound
  dsimp only
  split_ifs
  · exact ⟨h.rest, h.active, h.players⟩
  · exact hside _
  · exact ⟨h.rest, h.active, h.players⟩
  · exact hside _
  · exact hside _

/-- The players whose choices count: those still active who made one. -/
def ArenaStorage.counts (s : ArenaStorage G) (a : Address) : Bool :=
  s.isPlayerActive a && (s.loadPlayerChoice a).isSome

theorem counts_eliminate (hnone : (w.storage.loadPlayerChoice a).isNone = true) :
    (w.eliminate a).storage.counts = w.storage.counts := by
  funext b
  by_cases hb : b = a
  · subst hb
    have hchoice : w.storage.choice b = none := Option.isNone_iff_eq_none.mp hnone
    simp [ArenaStorage.counts, ArenaStorage.loadPlayerChoice, World.eliminate, World.publish,
      ArenaStorage.savePlayerProfile, ArenaStorage.setPlayerActive, hchoice]
  · simp [ArenaStorage.counts, ArenaStorage.isPlayerActive, ArenaStorage.loadPlayerChoice,
      World.eliminate, World.publish, ArenaStorage.savePlayerProfile,
      ArenaStorage.setPlayerActive, hb]

theorem foldl_eliminateAfk (l : List Address) (t : Tally G H) :
    (l.foldl eliminateAfk t).activePlayers =
      t.activePlayers ++ l.filter t.world.storage.counts := by
  induction l generalizing t with
  | nil => simp
  | cons a l ih =>
    rw [List.foldl_cons, ih, List.filter_cons]
    unfold eliminateAfk
    split_ifs with hactive hafk hc hc
    · simp [ArenaStorage.counts, Option.isNone_iff_eq_none.mp hafk] at hc
    · rw [counts_eliminate hafk]
    · simp
    · simp [ArenaStorage.counts, hactive] at hc
      simp [hc] at hafk
    · simp [ArenaStorage.counts, hactive] at *
    · rfl

/-- `resolve_round` counts the choices of exactly the listed players that are
    active and made one. -/
theorem firstPass_activePlayers (w : World G H) :
    (firstPass w).activePlayers = w.storage.loadAllPlayers.filter w.storage.counts := by
  unfold firstPass
  rw [foldl_eliminateAfk]
  rfl

theorem noteEliminated_eq {s : ArenaStorage G} {n : ℕ} :
    (if n > 0 then s.decrementLiveSurvivors n else s) = { s with
      globalStats := (if n > 0 then s.decrementLiveSurvivors n else s).globalStats } := by
  split_ifs
  · rfl
  · rfl

theorem resolveRound_effect {c : Call} {result : RoundResult} (hres : c.isResolution = true)
    (h : resolveRound w = .ok (result, w')) : Effect env auths w c w' := by
  simp only [resolveRound, ArenaStorage.loadConfig, Fallible.bind_eq_ok, check_eq_ok, okOr_eq_ok,
    unwrap_eq_ok, requireNotPaused_eq_ok, Fallible.pure_eq_ok, exists_const, Prod.mk.injEq] at h
  obtain ⟨config, hc, hp, hprog, round, hround, -, rfl⟩ := h
  have ht := (firstPass_tallied w).decideRound
  generalize decideRound (firstPass w) = t at ht hround ⊢
  obtain ⟨activePlayers, eliminated, survivors, world⟩ := t
  obtain ⟨hrest, hactive, -⟩ := ht
  dsimp only at hrest hactive hround ⊢
  generalize world.storage.active = active at hrest hactive
  generalize world.storage.profile = profile at hrest
  generalize world.events = events at hrest
  subst hrest
  rw [noteEliminated_eq, ArenaStorage.clearChoices_eq] at hround ⊢
  generalize (if eliminated > 0 then _ else _ : ArenaStorage G).globalStats = stats at hround ⊢
  obtain rfl := checkedAddU32_eq_some hround
  split_ifs with hover
  · split
    · rename_i winner hfind
      exact .resolved hres hc hp hprog rfl hactive
        (.inr ⟨rfl, .inr ⟨winner, List.mem_of_find?_eq_some hfind, rfl⟩⟩)
    · exact .resolved hres hc hp hprog rfl hactive (.inr ⟨rfl, .inl rfl⟩)
  · have hsame : w.storage.config = some { config with state := .InProgress } := by
      rw [hc, ← hprog]
    exact .resolved hres hc hp hprog hsame hactive (.inl ⟨rfl, rfl⟩)

theorem autoResolve_effect {result : RoundResult} (h : autoResolve w = .ok (result, w')) :
    Effect env auths w .autoResolve w' := by
  simp only [autoResolve, Fallible.bind_eq_ok] at h
  obtain ⟨config, -, u, -, v, -, h⟩ := h
  exact resolveRound_effect rfl h

/-! ### Endings and payouts -/

theorem claim_effect {winner : Address} (h : claim env auths winner w = .ok w') :
    Effect env auths w (.claim winner) w' := by
  simp only [claim, ArenaStorage.loadConfig, ArenaStorage.getWinner, Fallible.bind_eq_ok,
    requireAuth_eq_ok, check_eq_ok, okOr_eq_ok, unwrap_eq_ok, requireNotPaused_eq_ok,
    transfer_eq_ok, Fallible.pure_eq_ok, exists_const] at h
  obtain ⟨ha, config, hc, hp, hfin, hclaimed, stored, hwin, rfl, pot, hpot, scaled, hscaled,
    platformFee, hfee, prize, hprize, w₁, ⟨between, htr, rfl⟩, w₂, ⟨outside, htr', rfl⟩, rfl⟩ := h
  have hle := checkedI128_le hpot
  obtain rfl := checkedI128_eq_some hpot
  obtain rfl := checkedI128_eq_some hscaled
  exact .claimed ha hc hp hfin hclaimed hwin
    ⟨hle, checkedDivI128_eq_some hfee, checkedI128_eq_some hprize⟩ htr htr'

theorem cleanupArena_effect (h : cleanupArena auths w = .ok w') :
    Effect env auths w .cleanupArena w' := by
  simp only [cleanupArena, ArenaStorage.loadConfig, Fallible.bind_eq_ok, requireAuth_eq_ok,
    check_eq_ok, okOr_eq_ok, Fallible.pure_eq_ok, exists_const] at h
  obtain ⟨config, hc, ha, hend, rfl⟩ := h
  exact .cleaned hc ha (by tauto)

theorem claimRefund_eq_ok {player : Address} : claimRefund env auths player w = .ok w' ↔
    player ∈ auths ∧ ∃ config, w.storage.config = some config ∧ config.state = .Cancelled ∧
      w.storage.isRefundClaimed player = false ∧ player ∈ w.storage.loadAllPlayers ∧
      ∃ outside, env.transfer w.now config.token env.here player config.entryFee w.outside =
        some outside ∧
        { w with
          outside := outside
          transfers := w.transfers ++ [⟨config.token, env.here, player, config.entryFee⟩]
          events := w.events ++ [.refundClaimed player]
          storage := { w.storage with
            refundClaimed := Function.update w.storage.refundClaimed player (some true) } } =
          w' := by
  simp only [claimRefund, ArenaStorage.loadConfig, Fallible.bind_eq_ok, requireAuth_eq_ok,
    check_eq_ok, okOr_eq_ok, transfer_eq_ok, Fallible.pure_eq_ok, exists_const]
  constructor
  · rintro ⟨ha, config, hc, hcan, hno, hmem, w₁, ⟨outside, htr, rfl⟩, rfl⟩
    exact ⟨ha, config, hc, hcan, hno, hmem, outside, htr, rfl⟩
  · rintro ⟨ha, config, hc, hcan, hno, hmem, outside, htr, rfl⟩
    exact ⟨ha, config, hc, hcan, hno, hmem, _, ⟨outside, htr, rfl⟩, rfl⟩

theorem claimRefund_effect {player : Address} (h : claimRefund env auths player w = .ok w') :
    Effect env auths w (.claimRefund player) w' := by
  obtain ⟨ha, config, hc, hcan, hno, hmem, outside, htr, rfl⟩ := claimRefund_eq_ok.mp h
  exact .refunded ha hc hcan hno hmem htr

/-! ### Creator stake and yield -/

theorem depositCreatorStake_effect {creator : Address} {amount : ℤ}
    (h : depositCreatorStake env auths creator amount w = .ok w') :
    Effect env auths w (.depositCreatorStake creator amount) w' := by
  simp only [depositCreatorStake, ArenaStorage.loadConfig, Fallible.bind_eq_ok,
    requireAuth_eq_ok, check_eq_ok, okOr_eq_ok, transfer_eq_ok, Fallible.pure_eq_ok,
    exists_const, not_le, gt_iff_lt, not_lt] at h
  obtain ⟨ha, hpos, hnone, config, hc, w₁, ⟨outside, htr, rfl⟩, rfl⟩ := h
  exact .staked ha hpos hnone hc htr

theorem slashStake_withdrawable {config : ArenaConfig} {stake : ℤ} {split : ℤ × ℤ}
    (h : slashStake config stake = .ok split) : split.1 = config.withdrawable stake := by
  unfold slashStake at h
  unfold ArenaConfig.withdrawable
  split_ifs at h ⊢ with hfin
  · simp only [Fallible.bind_eq_ok, unwrap_eq_ok, Fallible.pure_eq_ok] at h
    obtain ⟨scaled, hscaled, slashed, hslashed, remaining, hrest, rfl⟩ := h
    obtain rfl := checkedI128_eq_some hscaled
    obtain rfl := checkedDivI128_eq_some hslashed
    exact checkedI128_eq_some hrest
  · obtain rfl := Fallible.pure_eq_ok.mp h
    rfl

theorem withdrawCreatorStake_effect {creator : Address}
    (h : withdrawCreatorStake env auths creator w = .ok w') :
    Effect env auths w (.withdrawCreatorStake creator) w' := by
  simp only [withdrawCreatorStake, ArenaStorage.loadConfig, Fallible.bind_eq_ok,
    requireAuth_eq_ok, check_eq_ok, okOr_eq_ok, transfer_eq_ok, Fallible.pure_eq_ok,
    exists_const, not_le] at h
  obtain ⟨ha, hpos, config, hc, split, hsplit, w₁, ⟨outside, htr, rfl⟩, rfl⟩ := h
  rw [slashStake_withdrawable hsplit] at htr ⊢
  exact .unstaked ha hpos hc htr

theorem receiveRwaYield_effect {adapter : Address} {yieldAmount : ℤ} {label : String} {id : ℕ}
    (h : receiveRwaYield auths adapter yieldAmount label w = .ok (id, w')) :
    Effect env auths w (.receiveRwaYield adapter yieldAmount label) w' := by
  simp only [receiveRwaYield, ArenaStorage.loadConfig, Fallible.bind_eq_ok, requireAuth_eq_ok,
    check_eq_ok, okOr_eq_ok, Fallible.pure_eq_ok, exists_const, not_le, Prod.mk.injEq] at h
  obtain ⟨ha, hpos, config, hc, hfin, -, rfl⟩ := h
  exact .yielded ha hpos hc hfin

/-- A successful call follows a rule. -/
theorem exec_effect {c : Call} (h : exec env auths c w = .ok w') : Effect env auths w c w' := by
  cases c with
  | initializeArena a => exact initializeArena_effect h
  | configureArena fee max deadline => exact configureArena_effect h
  | startGame => exact startGame_effect h
  | finishGame => exact finishGame_effect h
  | pause reason => exact tuning_effect rfl h
  | unpause => exact tuning_effect rfl h
  | updateTreasury a => exact tuning_effect rfl h
  | setCreationCooldown n => exact tuning_effect rfl h
  | setSlashRate n => exact tuning_effect rfl h
  | updateRoundBounds lo hi => exact global_effect rfl h
  | updatePlatformFee n => exact global_effect rfl h
  | proposeAdmin a => exact proposeAdmin_effect h
  | acceptAdmin => exact acceptAdmin_effect h
  | join p => exact join_effect h
  | submitChoice p c => exact submitChoice_effect h
  | startRound d =>
    obtain ⟨⟨round, w₁⟩, hr, rfl⟩ := Fallible.map_eq_ok.mp h
    exact startRound_effect hr
  | commitChoice p hash => exact commitChoice_effect h
  | revealChoice p c salt => exact revealChoice_effect h
  | resolveRound =>
    obtain ⟨⟨result, w₁⟩, hr, rfl⟩ := Fallible.map_eq_ok.mp h
    exact resolveRound_effect rfl hr
  | autoResolve =>
    obtain ⟨⟨result, w₁⟩, hr, rfl⟩ := Fallible.map_eq_ok.mp h
    exact autoResolve_effect hr
  | claim p => exact claim_effect h
  | cancelArena => exact cancelArena_effect h
  | expireArena => exact expireArena_effect h
  | cleanupArena => exact cleanupArena_effect h
  | claimRefund p => exact claimRefund_effect h
  | depositCreatorStake a x => exact depositCreatorStake_effect h
  | withdrawCreatorStake a => exact withdrawCreatorStake_effect h
  | receiveRwaYield a x label =>
    obtain ⟨⟨id, w₁⟩, hr, rfl⟩ := Fallible.map_eq_ok.mp h
    exact receiveRwaYield_effect hr

end Forward

end InverseArena.CoinArena
