import InverseArena.Arena.Round

/-!
# The entry points of the arena contract

`contract/arena/src/lib.rs`. Everything outside the arena's own storage (token,
vault and oracle contracts, uploaded codes, SHA-256) is a parameter, `Env`: a failing call
returns `none` and changes nothing. An entry point maps the world before the
call to the world after it; an error or a trap leaves the world as it was,
since the host rolls a failing call back, and with it the reentrancy guard. The
host does not let a call re-enter a contract that is running, so a call to the
arena starts only after the last one has ended.
-/

namespace InverseArena.Arena

open Host MachineInt

/-- `MAX_PLAYERS_ALLOWED`. -/
def maxPlayersAllowed : ℕ := 100

/-- `UPGRADE_TIMELOCK_SECONDS`. -/
def upgradeTimelockSeconds : ℕ := 86400

/-- What the arena calls, over a state `H` of everything outside its storage.
    The calls take the ledger time and the address called. -/
structure Env (H : Type) where
  /-- `env.current_contract_address()`. -/
  here : Address
  /-- The addresses that can authorize a call to the arena. -/
  mayAuthorize : Address → Prop
  /-- What can happen outside the arena between two of its calls. -/
  evolves : ℕ → H → H → Prop
  /-- `env.crypto().sha256(preimage)`. -/
  sha256 : List UInt8 → BytesN 32
  /-- `token.transfer(from, to, amount)`. -/
  transfer : ℕ → Address → Address → Address → ℤ → H → Option H
  /-- `vault.deposit(from, amount)`. -/
  deposit : ℕ → Address → Address → ℤ → H → Option H
  /-- `vault.withdraw_all(from)`. -/
  withdrawAll : ℕ → Address → Address → H → Option (ℤ × H)
  /-- `vault.balance_of(user)`. -/
  balanceOf : ℕ → Address → Address → H → Option (ℤ × H)
  /-- `oracle.get_current_yield_bps()`. -/
  getCurrentYieldBps : ℕ → Address → H → Option (ℕ × H)
  /-- Whether a contract code with this hash has been uploaded to the ledger. -/
  uploaded : BytesN 32 → H → Bool

/-- A token transfer made by the arena. -/
structure Transfer where
  token : Address
  sender : Address
  recipient : Address
  amount : ℤ
  deriving DecidableEq, Repr

/-- The arena's storage and its surroundings; `events` and `transfers` record
    what the arena has published and transferred, oldest first. -/
structure World (H : Type) where
  storage : ArenaStorage
  outside : H
  now : ℕ
  events : List ArenaEvent
  transfers : List Transfer

/-- A freshly deployed arena. -/
def World.fresh {H : Type} (outside : H) (now : ℕ) : World H := ⟨.fresh, outside, now, [], []⟩

/-- The arguments of `initialize`. -/
structure InitializeArgs where
  admin : Address
  stakeToken : Address
  yieldVault : Address
  entryFee : ℤ
  oracleContract : Address
  factory : Address
  poolId : ℕ
  minPlayers : ℕ
  maxPlayers : ℕ
  roundDuration : ℕ
  deriving DecidableEq, Repr

section Helpers

variable {H : Type}

/-- `env.events().publish(..)`. -/
def World.publish (w : World H) (e : ArenaEvent) : World H := { w with events := w.events ++ [e] }

/-- `token_client.transfer(from, to, amount)`, which traps when it fails. -/
def World.transfer (env : Env H) (token sender recipient : Address) (amount : ℤ) (w : World H) :
    Result ArenaError (World H) := do
  let outside ← unwrap (env.transfer w.now token sender recipient amount w.outside)
  pure { w with
    outside := outside, transfers := w.transfers ++ [⟨token, sender, recipient, amount⟩] }

/-- `env.deployer().update_current_contract_wasm(wasm_hash)`, which traps unless the code
    has been uploaded. -/
def updateCurrentContractWasm (env : Env H) (wasmHash : BytesN 32) (w : World H) :
    Result ArenaError Unit :=
  Fallible.ensure (env.uploaded wasmHash w.outside = true) .trap

/-- `try_balance_of(arena).unwrap_or(Ok(d)).unwrap_or(d)`. -/
def vaultBalanceOr (env : Env H) (now : ℕ) (vault : Address) (d : ℤ) (outside : H) : ℤ × H :=
  (env.balanceOf now vault env.here outside).getD (d, outside)

/-- `oracle::fetch_yield_bps`. -/
def fetchYieldBps (env : Env H) (oracle : Address) (w : World H) : ℕ × World H :=
  match env.getCurrentYieldBps w.now oracle w.outside with
  | some (bps, outside) => (bps, { w with outside := outside })
  | none => (0, w.publish (.vaultOracleFailed oracle))

/-- The withdrawal of `cancel_arena` and `expire_arena`:
    `if player_count > 0 { rwa_client.withdraw_all(arena) }`. -/
def withdrawIfJoined (env : Env H) (config : ArenaConfig) (now : ℕ) (outside : H) : Option H :=
  if config.playerCount > 0 then
    (env.withdrawAll now config.yieldVault env.here outside).map (·.2)
  else some outside

/-- `require_not_paused(config)`. -/
def requireNotPaused (config : ArenaConfig) : Result ArenaError Unit :=
  check (config.paused = false) .ContractPaused

/-- `validate_player_limits(min_players, max_players)`. -/
def validatePlayerLimits (minPlayers maxPlayers : ℕ) : Result ArenaError Unit := do
  check (¬ (minPlayers < minPlayersToStart ∨ minPlayers > maxPlayers)) .InvalidPlayerLimits
  check (¬ maxPlayers > maxPlayersAllowed) .InvalidPlayerLimits

/-- The bytes hashed by `compute_commitment`. -/
def preimage (choice : Choice) (salt : BytesN 32) : List UInt8 := choice.toByte :: salt.toList

/-- `compute_commitment(choice, salt)`. -/
def computeCommitment (env : Env H) (choice : Choice) (salt : BytesN 32) : BytesN 32 :=
  env.sha256 (preimage choice salt)

@[simp] theorem requireNotPaused_eq_ok {config : ArenaConfig} {u : Unit} :
    requireNotPaused config = .ok u ↔ config.paused = false := check_eq_ok

@[simp] theorem updateCurrentContractWasm_eq_ok {env : Env H} {wasmHash : BytesN 32} {w : World H}
    {u : Unit} : updateCurrentContractWasm env wasmHash w = .ok u ↔
      env.uploaded wasmHash w.outside = true := Fallible.ensure_eq_ok

end Helpers

variable {H : Type} (env : Env H) (auths : List Address)

/-! ## Setup and administration -/

/-- `initialize(..)`. -/
def initializeArena (a : InitializeArgs) (w : World H) : Result ArenaError (World H) := do
  requireAuth auths a.admin
  check (w.storage.hasConfig = false) .AlreadyInitialized
  check (¬ a.entryFee ≤ 0) .InvalidEntryFee
  check (¬ (a.minPlayers < minPlayersToStart ∨ a.minPlayers > a.maxPlayers)) .InvalidPlayerLimits
  check (¬ a.maxPlayers > maxPlayersAllowed) .InvalidPlayerLimits
  let (_, outside) ← okOr (env.balanceOf w.now a.yieldVault env.here w.outside) .InvalidVaultAddress
  let config : ArenaConfig :=
    { admin := a.admin, stakeToken := a.stakeToken, yieldVault := a.yieldVault
      entryFee := a.entryFee, state := .Open, paused := false, playerCount := 0
      cumulativeYield := 0, commitDeadline := 0, roundCount := 0
      oracleContract := a.oracleContract, factory := a.factory, poolId := a.poolId
      roundDuration := a.roundDuration }
  let s := w.storage.saveConfig config
  let s := s.incrementCreatorActivePools a.admin
  let s := s.savePlayerLimits a.minPlayers a.maxPlayers
  let s := s.saveLastVaultBalance 0
  pure ({ w with storage := s, outside := outside }.publish (.initialized a.admin))

/-- `propose_upgrade(new_wasm_hash)`. -/
def proposeUpgrade (newWasmHash : BytesN 32) (w : World H) : Result ArenaError (World H) := do
  let config ← w.storage.loadConfig
  requireAuth auths config.admin
  let s := w.storage.savePendingUpgrade { wasmHash := newWasmHash, proposedAt := w.now }
  pure ({ w with storage := s }.publish (.upgradeProposed newWasmHash w.now))

/-- `execute_upgrade()`. What runs after it is other code, so it is not among
    the calls of a run below. -/
def executeUpgrade (w : World H) : Result ArenaError (World H) := do
  let pending ← okOr w.storage.loadPendingUpgrade .NoPendingUpgrade
  let config ← w.storage.loadConfig
  requireAuth auths config.admin
  check (¬ w.now < satAddU64 pending.proposedAt upgradeTimelockSeconds) .UpgradeTimelockPending
  updateCurrentContractWasm env pending.wasmHash w
  pure ({ w with storage := w.storage.clearPendingUpgrade }.publish (.upgraded pending.wasmHash))

/-- `configure_player_limits(min_players, max_players)`. -/
def configurePlayerLimits (minPlayers maxPlayers : ℕ) (w : World H) :
    Result ArenaError (World H) := do
  let config ← w.storage.loadConfig
  requireAuth auths config.admin
  validatePlayerLimits minPlayers maxPlayers
  let s := w.storage.savePlayerLimits minPlayers maxPlayers
  pure ({ w with storage := s }.publish (.playerLimitsConfigured minPlayers maxPlayers))

/-- `ban_player(player)`. -/
def banPlayer (player : Address) (w : World H) : Result ArenaError (World H) := do
  let config ← w.storage.loadConfig
  requireAuth auths config.admin
  let s := w.storage.setPlayerBanned player true
  pure ({ w with storage := s }.publish (.playerBanned config.admin player))

/-- `unban_player(player)`. -/
def unbanPlayer (player : Address) (w : World H) : Result ArenaError (World H) := do
  let config ← w.storage.loadConfig
  requireAuth auths config.admin
  let s := w.storage.setPlayerBanned player false
  pure ({ w with storage := s }.publish (.playerUnbanned config.admin player))

/-- `propose_admin(new_admin)`. -/
def proposeAdmin (newAdmin : Address) (w : World H) : Result ArenaError (World H) := do
  let config ← w.storage.loadConfig
  requireAuth auths config.admin
  requireNotPaused config
  pure { w with storage := w.storage.savePendingAdmin { newAdmin := newAdmin } }

/-- `accept_admin()`. -/
def acceptAdmin (w : World H) : Result ArenaError (World H) := do
  let pending ← okOr w.storage.loadPendingAdmin .NoPendingAdmin
  requireAuth auths pending.newAdmin
  let config ← w.storage.loadConfig
  requireNotPaused config
  let oldAdmin := config.admin
  let s := w.storage.saveConfig { config with admin := pending.newAdmin }
  pure ({ w with storage := s.deletePendingAdmin }.publish
    (.adminChanged oldAdmin pending.newAdmin))

/-- `change_admin(new_admin)`. -/
def changeAdmin (newAdmin : Address) (w : World H) : Result ArenaError (World H) :=
  proposeAdmin auths newAdmin w

/-- `pause(reason)`. -/
def pause (reason : String) (w : World H) : Result ArenaError (World H) := do
  let config ← w.storage.loadConfig
  requireAuth auths config.admin
  let s := w.storage.saveConfig { config with paused := true }
  pure ({ w with storage := s }.publish (.paused config.admin reason))

/-- `unpause()`. -/
def unpause (w : World H) : Result ArenaError (World H) := do
  let config ← w.storage.loadConfig
  requireAuth auths config.admin
  let s := w.storage.saveConfig { config with paused := false }
  pure ({ w with storage := s }.publish (.unpaused config.admin))

/-- `configure_leaderboard_limit(limit)`. -/
def configureLeaderboardLimit (limit : ℕ) (w : World H) : Result ArenaError (World H) := do
  let config ← w.storage.loadConfig
  requireAuth auths config.admin
  pure { w with storage := w.storage.saveLeaderboardLimit limit }

/-! ## Joining and playing -/

/-- `join_arena(player)`. -/
def joinArena (player : Address) (w : World H) : Result ArenaError (World H) := do
  let s ← w.storage.enterReentrancyGuard
  requireAuth auths player
  let config ← s.loadConfig
  requireNotPaused config
  check (config.state = .Open) .InvalidGameState
  check (player ≠ config.admin) .CreatorCannotJoin
  check (s.isPlayerBanned player = false) .PlayerBanned
  check ((s.loadPlayer player).isSome = false) .AlreadyJoined
  check (∀ maxPlayers ∈ s.loadMaxPlayers, ¬ config.playerCount ≥ maxPlayers) .ArenaFull
  let w ← { w with storage := s }.transfer env config.stakeToken player env.here config.entryFee
  let outside ← okOr (env.deposit w.now config.yieldVault env.here config.entryFee w.outside)
    .VaultDepositFailed
  let baseline := satAddI128 w.storage.loadLastVaultBalance config.entryFee
  let s := w.storage.saveLastVaultBalance baseline
  let s := s.addPlayer player
  let count := s.loadAllPlayers.length
  pure ({ w with storage := s.exitReentrancyGuard, outside := outside }.publish
    (.playerJoined player count))

/-- `submit_commitment(player, commitment)`. -/
def submitCommitment (player : Address) (commitment : BytesN 32) (w : World H) :
    Result ArenaError (World H) := do
  requireAuth auths player
  let config ← w.storage.loadConfig
  requireNotPaused config
  check (config.state = .Active) .RoundNotActive
  check (¬ w.now ≥ config.commitDeadline) .CommitPhaseEnded
  let playerState ← okOr (w.storage.loadPlayer player) .NotAPlayer
  check (playerState.active = true) .PlayerEliminated
  let round := satAddU32 config.roundCount 1
  let s := w.storage.saveCommitment player round commitment
  pure ({ w with storage := s }.publish (.commitmentSubmitted player round))

/-- `reveal_choice(player, choice, salt)`. -/
def revealChoice (player : Address) (choice : Choice) (salt : BytesN 32) (w : World H) :
    Result ArenaError (World H) := do
  requireAuth auths player
  let config ← w.storage.loadConfig
  requireNotPaused config
  let playerState ← okOr (w.storage.loadPlayer player) .NotAPlayer
  check (playerState.active = true) .PlayerEliminated
  let round := satAddU32 config.roundCount 1
  check ((w.storage.loadChoice player round).isSome = false) .ChoiceAlreadyRevealed
  check (¬ w.now < config.commitDeadline) .RoundNotActive
  let commitment ← okOr (w.storage.loadCommitment player round) .MissingCommitment
  check (commitment = computeCommitment env choice salt) .InvalidReveal
  let s := w.storage.saveChoice player round choice
  pure ({ w with storage := s }.publish (.choiceRevealed player choice round))

/-- `start_round(duration_seconds)`. -/
def startRound (durationSeconds : ℕ) (w : World H) : Result ArenaError (World H) := do
  let config ← w.storage.loadConfig
  requireAuth auths config.admin
  requireNotPaused config
  ensureTransition config.state .Active .InvalidGameState
  let activeCount := (w.storage.loadAllPlayers.filter w.storage.isActive).length
  check (¬ activeCount < w.storage.loadMinPlayers) .NotEnoughPlayers
  let round := satAddU32 config.roundCount 1
  let s := w.storage.clearRoundData round
  let vault := vaultBalanceOr env w.now config.yieldVault 0 w.outside
  let s := s.saveLastVaultBalance vault.1
  let config := { config with
    commitDeadline := satAddU64 w.now durationSeconds, state := .Active }
  let s := s.saveConfig config
  let s := s.saveRoundStart w.now
  let s := s.saveRoundDuration durationSeconds
  pure ({ w with storage := s, outside := vault.2 }.publish
    (.gameStarted (satAddU32 config.roundCount 1) durationSeconds))

/-- Lines 625-635 of `resolve_round`: the yield since the last recorded
    balance, 0 (and an event) when the balance has fallen. -/
def accruedYield (previousBalance vaultBalance : ℤ) (w : World H) : ℤ × World H :=
  if vaultBalance ≥ previousBalance then (wrapI128 (vaultBalance - previousBalance), w)
  else (0, w.publish (.vaultBalanceDecreased previousBalance vaultBalance))

/-- Lines 618-641 of `resolve_round`: takes the yield snapshot of the round. -/
def snapshotYield (config : ArenaConfig) (round : ℕ) (w : World H) : YieldSnapshot × World H :=
  let rate := fetchYieldBps env config.oracleContract w
  let w := rate.2
  let previousBalance := w.storage.loadLastVaultBalance
  let vault := vaultBalanceOr env w.now config.yieldVault previousBalance w.outside
  let accrued := accruedYield previousBalance vault.1 { w with outside := vault.2 }
  let w := accrued.2
  let snapshot : YieldSnapshot := { round := round, rateBps := rate.1, accrued := accrued.1 }
  let s := w.storage.saveRoundYieldBps round rate.1
  let s := s.saveYieldSnapshot round snapshot
  let s := s.saveLastVaultBalance vault.1
  (snapshot, { w with storage := s })

/-- Lines 653-682 of `resolve_round`: moves to `Open` or `Finished`. -/
def concludeRound (config : ArenaConfig) (round : ℕ) (resolution : RoundResolution)
    (w : World H) : World H :=
  let finished : Bool := resolution.survivors ≤ 1
  let s := w.storage
  let s := if finished then
      buildLeaderboard (match resolution.winner with
        | some winner => s.setWinner winner
        | none => s)
    else s
  let events := if finished then w.events ++ [.leaderboardUpdated] else w.events
  let config := { config with
    roundCount := round, state := if finished then .Finished else .Open }
  let s := s.saveConfig config
  let s := if config.state = .Finished then s.decrementCreatorActivePools config.admin else s
  let events := events ++ [.roundResolved round resolution.eliminated resolution.survivors]
  let events := if resolution.tied then events ++ [.roundTied round resolution.survivors]
    else events
  let events := match resolution.winner with
    | some winner => events ++ [.gameFinished winner round]
    | none => events
  let s := s.clearRoundData round
  { w with storage := s.exitReentrancyGuard, events := events }

/-- Lines 642-682 of `resolve_round`: eliminates players and records the result. -/
def settlePlayers (config : ArenaConfig) (round : ℕ) (snapshot : YieldSnapshot) (w : World H) :
    World H :=
  let config := { config with
    cumulativeYield := satAddI128 config.cumulativeYield snapshot.accrued }
  let resolved := resolvePlayers w.storage w.events round
  let resolution := resolved.1
  let result : RoundResult :=
    { round := round, eliminated := resolution.eliminated, survivors := resolution.survivors
      yieldSnapshot := snapshot }
  let s := resolved.2.storage.saveRoundResult round result
  concludeRound config round resolution { w with storage := s, events := resolved.2.events }

/-- Lines 617-682 of `resolve_round`, which cannot fail. -/
def settleRound (config : ArenaConfig) (w : World H) : World H :=
  let round := satAddU32 config.roundCount 1
  let snapshot := snapshotYield env config round w
  settlePlayers config round snapshot.1 snapshot.2

/-- `resolve_round()`. -/
def resolveRound (w : World H) : Result ArenaError (World H) := do
  let s ← w.storage.enterReentrancyGuard
  let config ← s.loadConfig
  requireAuth auths config.admin
  requireNotPaused config
  check (config.state = .Active) .RoundNotActive
  let roundStart ← okOr s.loadRoundStart .RoundNotStarted
  let grace := s.loadRoundDuration
  check (¬ w.now < satAddU64 roundStart grace) .GracePeriodNotElapsed
  pure (settleRound env config { w with storage := s })

/-! ## Endings and payouts -/

/-- `cancel_arena()`. -/
def cancelArena (w : World H) : Result ArenaError (World H) := do
  let s ← w.storage.enterReentrancyGuard
  let config ← s.loadConfig
  requireAuth auths config.admin
  requireNotPaused config
  ensureState config.state .Open .InvalidGameState
  let config := { config with state := .Cancelled }
  let s := s.saveConfig config
  let s := s.decrementCreatorActivePools config.admin
  let outside ← unwrap (withdrawIfJoined env config w.now w.outside)
  pure ({ w with storage := s.exitReentrancyGuard, outside := outside }.publish
    (.arenaCancelled config.admin))

/-- The refund loop of `expire_arena` (lines 470-479). -/
def refundActive (config : ArenaConfig) : List Address → World H → Result ArenaError (World H)
  | [], w => pure w
  | player :: players, w => do
    if w.storage.isActive player then
      let w ← w.transfer env config.stakeToken env.here player config.entryFee
      refundActive config players w
    else refundActive config players w

/-- `expire_arena()`, by anyone. -/
def expireArena (w : World H) : Result ArenaError (World H) := do
  let s ← w.storage.enterReentrancyGuard
  let config ← s.loadConfig
  requireNotPaused config
  check (config.state = .Active) .InvalidGameState
  check (¬ w.now ≤ config.commitDeadline) .DeadlineTooSoon
  let config := { config with state := .Finished }
  let s := s.saveConfig config
  let s := s.decrementCreatorActivePools config.admin
  let outside ← unwrap (withdrawIfJoined env config w.now w.outside)
  let players := s.loadAllPlayers
  let w ← refundActive env config players { w with storage := s, outside := outside }
  pure ({ w with storage := w.storage.exitReentrancyGuard }.publish .arenaExpired)

/-- `claim(winner)`. -/
def claim (winner : Address) (w : World H) : Result ArenaError (World H) := do
  let s ← w.storage.enterReentrancyGuard
  requireAuth auths winner
  let config ← s.loadConfig
  requireNotPaused config
  check (config.state = .Finished) .GameNotFinished
  check (s.isPrizeClaimed = false) .PrizeAlreadyClaimed
  let storedWinner ← okOr s.getWinner .PlayerEliminated
  check (storedWinner = winner) .PlayerEliminated
  let s := s.markPrizeClaimed
  let config := { config with state := .Settled }
  let s := s.saveConfig config
  let principal := wrapI128 (config.entryFee * config.playerCount)
  let payout := satAddI128 principal config.cumulativeYield
  let withdrawal := (env.withdrawAll w.now config.yieldVault env.here w.outside).getD
    (payout, w.outside)
  let withdrawn := withdrawal.1
  let total := if payout > withdrawn then withdrawn else payout
  let w ← { w with storage := s, outside := withdrawal.2 }.transfer env
    config.stakeToken env.here winner total
  pure ({ w with storage := w.storage.exitReentrancyGuard }.publish
    (.prizeClaimed winner total (satSubI128 total principal)))

/-- `force_cancel_arena()`, also while paused. -/
def forceCancelArena (w : World H) : Result ArenaError (World H) := do
  let s ← w.storage.enterReentrancyGuard
  let config ← s.loadConfig
  requireAuth auths config.admin
  check (¬ (config.state = .Finished ∨ config.state = .Settled)) .InvalidGameState
  if config.state = .Cancelled then pure { w with storage := s.exitReentrancyGuard }
  else
    let config := { config with state := .Cancelled }
    let s := s.saveConfig config
    let s := s.decrementCreatorActivePools config.admin
    -- a failing withdrawal is ignored: the state stays `Cancelled`
    let outside := ((env.withdrawAll w.now config.yieldVault env.here w.outside).map
      (·.2)).getD w.outside
    pure ({ w with storage := s.exitReentrancyGuard, outside := outside }.publish
      (.arenaCancelled config.admin))

/-- `claim_refund(player)`, also while paused. -/
def claimRefund (player : Address) (w : World H) : Result ArenaError (World H) := do
  requireAuth auths player
  let config ← w.storage.loadConfig
  check (config.state = .Cancelled ∨ config.paused = false) .ContractPaused
  check (config.state = .Cancelled) .ArenaNotCancelled
  check (w.storage.isRefundClaimed player = false) .RefundAlreadyClaimed
  check ((w.storage.loadPlayer player).isSome = true) .NotAPlayer
  let s := w.storage.setRefundClaimed player
  let w ← { w with storage := s }.transfer env config.stakeToken env.here player config.entryFee
  pure (w.publish (.refundClaimed player))

/-! ## Runs -/

/-- A call of an entry point. -/
inductive Call where
  | initializeArena (args : InitializeArgs)
  | proposeUpgrade (newWasmHash : BytesN 32)
  | configurePlayerLimits (minPlayers maxPlayers : ℕ)
  | banPlayer (player : Address)
  | unbanPlayer (player : Address)
  | proposeAdmin (newAdmin : Address)
  | acceptAdmin
  | changeAdmin (newAdmin : Address)
  | pause (reason : String)
  | unpause
  | configureLeaderboardLimit (limit : ℕ)
  | joinArena (player : Address)
  | submitCommitment (player : Address) (commitment : BytesN 32)
  | revealChoice (player : Address) (choice : Choice) (salt : BytesN 32)
  | startRound (durationSeconds : ℕ)
  | resolveRound
  | cancelArena
  | expireArena
  | claim (winner : Address)
  | forceCancelArena
  | claimRefund (player : Address)
  deriving DecidableEq, Repr

/-- The call `c` authorized by `auths`. -/
def exec : Call → World H → Result ArenaError (World H)
  | .initializeArena a => initializeArena env auths a
  | .proposeUpgrade h => proposeUpgrade auths h
  | .configurePlayerLimits lo hi => configurePlayerLimits auths lo hi
  | .banPlayer p => banPlayer auths p
  | .unbanPlayer p => unbanPlayer auths p
  | .proposeAdmin a => proposeAdmin auths a
  | .acceptAdmin => acceptAdmin auths
  | .changeAdmin a => changeAdmin auths a
  | .pause reason => pause auths reason
  | .unpause => unpause auths
  | .configureLeaderboardLimit n => configureLeaderboardLimit auths n
  | .joinArena p => joinArena env auths p
  | .submitCommitment p h => submitCommitment auths p h
  | .revealChoice p c salt => revealChoice env auths p c salt
  | .startRound d => startRound env auths d
  | .resolveRound => resolveRound env auths
  | .cancelArena => cancelArena env auths
  | .expireArena => expireArena env
  | .claim p => claim env auths p
  | .forceCancelArena => forceCancelArena env auths
  | .claimRefund p => claimRefund env auths p

/-- What can happen: a call to the arena, a change of its surroundings, the
    passing of time. -/
inductive Action (H : Type) where
  | call (auths : List Address) (c : Call)
  | external (outside : H)
  | tick (time : ℕ)

/-- One step. A failing call is rolled back and is no step; the time of the
    ledger never decreases. -/
inductive Step : World H → Action H → World H → Prop
  | call {w w' auths c} : (∀ a ∈ auths, env.mayAuthorize a) → exec env auths c w = .ok w' →
      Step w (.call auths c) w'
  | external {w outside} : env.evolves w.now w.outside outside →
      Step w (.external outside) { w with outside := outside }
  | tick {w time} : w.now ≤ time → time ≤ u64Max → Step w (.tick time) { w with now := time }

end InverseArena.Arena
