import InverseArena.CoinArena.Storage

/-!
# The entry points of the coin arena

`contracts/arena/src/lib.rs` and validation.rs. The token contracts, Keccak-256
and the functions that the source calls but does not contain are parameters,
`Env`: a failing call returns `none` and changes nothing. An entry point maps
the world before the call to the world after it; an error or a trap leaves the
world as it was, since the host rolls a failing call back. The host does not
let a call re-enter a contract that is running. The release profile enables
overflow checks, so the plain operators trap; counters of players need no
check, since no vector of the host holds more than `u32::MAX` of them.
-/

namespace InverseArena.CoinArena

open Host MachineInt

/-- `MAX_PLAYERS_ALLOWED`. -/
def maxPlayersAllowed : ℕ := 100

/-- What the arena calls, over a state `H` of everything outside its storage
    and the storage entries `G` of the missing functions. -/
structure Env (G H : Type) where
  /-- `env.current_contract_address()`. -/
  here : Address
  /-- The addresses that can authorize a call to the arena. -/
  mayAuthorize : Address → Prop
  /-- What can happen outside the arena between two of its calls. -/
  evolves : ℕ → H → H → Prop
  /-- `env.crypto().keccak256(preimage)`. -/
  keccak256 : List UInt8 → BytesN 32
  /-- `token.transfer(from, to, amount)`, at the ledger time. -/
  transfer : ℕ → Address → Address → Address → ℤ → H → Option H
  /-- `ArenaStorage::get_platform_fee_bps()`. -/
  getPlatformFeeBps : G → ℕ
  /-- `admin::update_platform_fee(new_fee_bps)`. -/
  updatePlatformFee : List Address → Option ArenaConfig → ℕ → G → Result ArenaError G
  /-- `ArenaStorage::set_global_round_bounds(min, max)`. -/
  setGlobalRoundBounds : ℕ → ℕ → G → G
  /-- `ArenaStorage::get_arena_round_bounds(arena_id)`. -/
  getArenaRoundBounds : ℕ → G → ℕ × ℕ

/-- A token transfer made by the arena. -/
structure Transfer where
  token : Address
  sender : Address
  recipient : Address
  amount : ℤ
  deriving DecidableEq, Repr

/-- The arena's storage and its surroundings; `events` and `transfers` record
    what the arena has published and transferred, oldest first. -/
structure World (G H : Type) where
  storage : ArenaStorage G
  outside : H
  now : ℕ
  /-- `env.ledger().sequence()`. -/
  sequence : ℕ
  events : List ArenaEvent
  transfers : List Transfer

variable {G H : Type}

/-- A freshly deployed arena. -/
def World.fresh (globals : G) (outside : H) (now sequence : ℕ) : World G H :=
  ⟨.fresh globals, outside, now, sequence, [], []⟩

/-- The arguments of `initialize`. -/
structure InitializeArgs where
  admin : Address
  token : Address
  entryFee : ℤ
  maxPlayers : ℕ
  joinDeadline : ℕ
  treasuryAddress : Address
  creationCooldownSeconds : ℕ
  deriving DecidableEq, Repr

/-! ## Checks and transfers -/

/-- `env.events().publish(..)`. -/
def World.publish (w : World G H) (e : ArenaEvent) : World G H :=
  { w with events := w.events ++ [e] }

/-- `token.transfer(from, to, amount)`, which traps when it fails. -/
def World.transfer (env : Env G H) (token sender recipient : Address) (amount : ℤ)
    (w : World G H) : Result ArenaError (World G H) := do
  let outside ← unwrap (env.transfer w.now token sender recipient amount w.outside)
  pure { w with
    outside := outside, transfers := w.transfers ++ [⟨token, sender, recipient, amount⟩] }

/-- `validate_entry_fee(entry_fee)`. -/
def validateEntryFee (entryFee : ℤ) : Result ArenaError Unit :=
  check (¬ entryFee ≤ 0) .InvalidEntryFee

/-- `validate_deadline(deadline, now)`. -/
def validateDeadline (deadline now : ℕ) : Result ArenaError Unit :=
  check (¬ deadline ≤ now) .DeadlineTooSoon

/-- `validate_max_players(max_players)`. -/
def validateMaxPlayers (maxPlayers : ℕ) : Result ArenaError Unit :=
  check (¬ (maxPlayers = 0 ∨ maxPlayers > maxPlayersAllowed)) .InvalidEntryFee

/-- `require_not_paused(config)`. -/
def requireNotPaused (config : ArenaConfig) : Result ArenaError Unit :=
  check (config.paused = false) .ContractPaused

@[simp] theorem requireNotPaused_eq_ok {config : ArenaConfig} {u : Unit} :
    requireNotPaused config = .ok u ↔ config.paused = false := check_eq_ok

/-- The player checks shared by `submit_choice`, `commit_choice` and
    `reveal_choice`. -/
def requireActivePlayer (s : ArenaStorage G) (player : Address) : Result ArenaError Unit := do
  check (player ∈ s.loadAllPlayers) .NotAPlayer
  check (s.isPlayerActive player = true) .PlayerEliminated

variable (env : Env G H) (auths : List Address)

/-! ## Setup and administration -/

/-- Lines 42-51 of `initialize`: the existing admin need not wait. -/
def checkCooldown (admin : Address) (now : ℕ) (existing : Option ArenaConfig) :
    Result ArenaError Unit :=
  match existing with
  | some existing =>
    if admin ≠ existing.admin ∧ existing.creationCooldownSeconds > 0 then
      let elapsed := now - existing.lastCreationTimestamp
      check (¬ elapsed < existing.creationCooldownSeconds) .CooldownNotElapsed
    else pure ()
  | none => pure ()

/-- `initialize(..)`, which no address authorizes. -/
def initializeArena (a : InitializeArgs) (w : World G H) : Result ArenaError (World G H) := do
  validateEntryFee a.entryFee
  validateDeadline a.joinDeadline w.now
  validateMaxPlayers a.maxPlayers
  checkCooldown a.admin w.now w.storage.config
  check (¬ (a.entryFee < 4000000 ∨ a.entryFee > 1000000000000)) .InvalidEntryFee
  let config : ArenaConfig :=
    { admin := a.admin, token := a.token, entryFee := a.entryFee, maxPlayers := a.maxPlayers
      joinDeadline := a.joinDeadline, state := .Open, paused := false, playerCount := 0
      treasuryAddress := a.treasuryAddress, lastCreationTimestamp := w.now
      creationCooldownSeconds := a.creationCooldownSeconds, creatorStake := 0
      slashRateBps := 5000, platformFeeBps := env.getPlatformFeeBps w.storage.globals }
  let s := w.storage.saveConfig config
  pure ({ w with storage := s.incrementArenaCount }.publish (.arenaInitialized a.admin))

/-- An entry point by which the admin changes the configuration: `guard` stands
    for its checks, `update` for what it saves, `event` for what it publishes. -/
def administer (guard : ArenaConfig → Result ArenaError Unit) (update : ArenaConfig → ArenaConfig)
    (event : ArenaConfig → ArenaEvent) (w : World G H) : Result ArenaError (World G H) := do
  let config ← w.storage.loadConfig
  requireAuth auths config.admin
  guard config
  pure ({ w with storage := w.storage.saveConfig (update config) }.publish (event config))

/-- `if let Some(x) = option { f(x)? }`. -/
def ifProvided {α : Type} (option : Option α) (f : α → Result ArenaError Unit) :
    Result ArenaError Unit :=
  match option with
  | some x => f x
  | none => pure ()

/-- `configure_arena(new_entry_fee, new_max_players, new_join_deadline)`. -/
def configureArena (newEntryFee : Option ℤ) (newMaxPlayers newJoinDeadline : Option ℕ)
    (w : World G H) : Result ArenaError (World G H) := do
  let config ← w.storage.loadConfig
  requireAuth auths config.admin
  check (config.state = .Open) .ArenaAlreadyStarted
  ifProvided newEntryFee validateEntryFee
  let config := { config with entryFee := newEntryFee.getD config.entryFee }
  let config := { config with maxPlayers := newMaxPlayers.getD config.maxPlayers }
  ifProvided newJoinDeadline fun deadline => validateDeadline deadline w.now
  let config := { config with joinDeadline := newJoinDeadline.getD config.joinDeadline }
  pure ({ w with storage := w.storage.saveConfig config }.publish .arenaConfigured)

/-- `start_game()`. -/
def startGame : World G H → Result ArenaError (World G H) :=
  administer auths
    (fun config => do
      requireNotPaused config
      check (config.state = .Open) .InvalidStateTransition)
    (fun config => { config with state := .InProgress }) fun _ => .gameStarted

/-- `finish_game()`. -/
def finishGame : World G H → Result ArenaError (World G H) :=
  administer auths
    (fun config => do
      requireNotPaused config
      check (config.state = .InProgress) .InvalidStateTransition)
    (fun config => { config with state := .Finished }) fun _ => .gameFinished

/-- `pause(reason)`. -/
def pause (reason : String) : World G H → Result ArenaError (World G H) :=
  administer auths (fun _ => pure ()) (fun config => { config with paused := true })
    fun config => .contractPaused config.admin reason

/-- `unpause()`. -/
def unpause : World G H → Result ArenaError (World G H) :=
  administer auths (fun _ => pure ()) (fun config => { config with paused := false })
    fun config => .contractUnpaused config.admin

/-- `update_treasury(new_treasury)`. -/
def updateTreasury (newTreasury : Address) : World G H → Result ArenaError (World G H) :=
  administer auths (fun _ => pure ()) (fun config => { config with treasuryAddress := newTreasury })
    fun config => .treasuryUpdated config.admin newTreasury

/-- `set_creation_cooldown(cooldown_seconds)`. -/
def setCreationCooldown (cooldownSeconds : ℕ) : World G H → Result ArenaError (World G H) :=
  administer auths (fun _ => pure ())
    (fun config => { config with creationCooldownSeconds := cooldownSeconds })
    fun config => .cooldownConfigured config.admin cooldownSeconds

/-- `set_slash_rate(slash_rate_bps)`. -/
def setSlashRate (slashRateBps : ℕ) : World G H → Result ArenaError (World G H) :=
  administer auths (fun _ => check (¬ slashRateBps > 10000) .InvalidSlashRate)
    (fun config => { config with slashRateBps := slashRateBps })
    fun config => .slashRateConfigured config.admin slashRateBps

/-- `update_round_bounds(min, max)`. -/
def updateRoundBounds (min max : ℕ) (w : World G H) : Result ArenaError (World G H) := do
  let config ← w.storage.loadConfig
  requireAuth auths config.admin
  check (¬ (min < 10 ∨ max > 2592000 ∨ min ≥ max)) .InvalidRoundBounds
  let s := { w.storage with globals := env.setGlobalRoundBounds min max w.storage.globals }
  pure ({ w with storage := s }.publish (.roundBoundsUpdated config.admin min max))

/-- `update_platform_fee(new_fee_bps)`. -/
def updatePlatformFee (newFeeBps : ℕ) (w : World G H) : Result ArenaError (World G H) := do
  let globals ← env.updatePlatformFee auths w.storage.config newFeeBps w.storage.globals
  pure { w with storage := { w.storage with globals := globals } }

/-- `propose_admin(new_admin)`. -/
def proposeAdmin (newAdmin : Address) (w : World G H) : Result ArenaError (World G H) := do
  let config ← w.storage.loadConfig
  requireAuth auths config.admin
  pure ({ w with storage := w.storage.setPendingAdmin newAdmin }.publish
    (.adminTransferProposed config.admin newAdmin))

/-- `accept_admin()`. -/
def acceptAdmin (w : World G H) : Result ArenaError (World G H) := do
  let config ← w.storage.loadConfig
  let pending ← okOr w.storage.getPendingAdmin .NoPendingAdmin
  requireAuth auths pending
  let s := w.storage.saveConfig { config with admin := pending }
  pure ({ w with storage := s.clearPendingAdmin }.publish (.adminTransferAccepted pending))

/-! ## Joining and playing -/

/-- `join(player)`. -/
def join (player : Address) (w : World G H) : Result ArenaError (World G H) := do
  let config ← w.storage.loadConfig
  requireNotPaused config
  check (config.state = .Open) .ArenaAlreadyStarted
  check (¬ config.playerCount ≥ config.maxPlayers) .ArenaFull
  check (¬ w.now ≥ config.joinDeadline) .DeadlinePassed
  requireAuth auths player
  let w ← w.transfer env config.token player env.here config.entryFee
  let s := w.storage.addPlayer player
  let playerCount ← unwrap (checkedAddU32 config.playerCount 1)
  let config := { config with playerCount := playerCount }
  let s := s.saveConfig config
  let s := s.incrementLiveSurvivors 1
  let s := s.addToGlobalPool config.entryFee
  let s := s.setPrizePool (satAddI128 s.getPrizePool config.entryFee)
  let w := { w with storage := s }.publish (.playerJoined player)
  if config.playerCount ≥ config.maxPlayers then
    let roundDeadline := satAddU64 config.joinDeadline 86400
    let s := w.storage.setRoundDeadline roundDeadline
    let s := s.setRound 1
    pure ({ w with storage := s }.publish (.roundStarted 1 roundDeadline))
  else pure w

/-- `submit_choice(player, choice)`. -/
def submitChoice (player : Address) (choice : Choice) (w : World G H) :
    Result ArenaError (World G H) := do
  let config ← w.storage.loadConfig
  requireNotPaused config
  check (config.state = .InProgress) .InvalidStateTransition
  requireActivePlayer w.storage player
  requireAuth auths player
  let s := w.storage.savePlayerChoice player choice
  pure ({ w with storage := s }.publish (.choiceSubmitted player))

/-- `start_round(deadline)`. -/
def startRound (deadline : ℕ) (w : World G H) : Result ArenaError (ℕ × World G H) := do
  let config ← w.storage.loadConfig
  requireAuth auths config.admin
  requireNotPaused config
  check (config.state = .InProgress) .InvalidStateTransition
  validateDeadline deadline w.now
  let currentArenaId := w.storage.loadGlobalStats.totalArenas
  let bounds := env.getArenaRoundBounds currentArenaId w.storage.globals
  let duration := deadline - w.now
  check (¬ (duration < bounds.1 ∨ duration > bounds.2)) .InvalidRoundDuration
  let round ← unwrap (checkedAddU32 w.storage.getRound 1)
  let s := w.storage.setRound round
  let s := s.setRoundDeadline deadline
  pure (round, { w with storage := s }.publish (.roundStarted round deadline))

/-- `commit_choice(player, hash)`. -/
def commitChoice (player : Address) (hash : BytesN 32) (w : World G H) :
    Result ArenaError (World G H) := do
  let config ← w.storage.loadConfig
  requireNotPaused config
  check (config.state = .InProgress) .InvalidStateTransition
  requireActivePlayer w.storage player
  requireAuth auths player
  let round := w.storage.getRound
  check ((w.storage.loadCommitHash player round).isSome = false) .AlreadyCommitted
  let s := w.storage.saveCommitHash player round hash
  pure ({ w with storage := s }.publish (.commitSubmitted player))

/-- The bytes that `reveal_choice` hashes. -/
def preimage (choice : Choice) (salt : BytesN 32) : List UInt8 := choice.byte :: salt.toList

/-- `reveal_choice(player, choice, salt)`. -/
def revealChoice (player : Address) (choice : Choice) (salt : BytesN 32) (w : World G H) :
    Result ArenaError (World G H) := do
  let config ← w.storage.loadConfig
  requireNotPaused config
  check (config.state = .InProgress) .InvalidStateTransition
  requireActivePlayer w.storage player
  requireAuth auths player
  let round := w.storage.getRound
  let storedHash ← okOr (w.storage.loadCommitHash player round) .NoCommitFound
  check (w.storage.isRevealed player round = false) .AlreadyRevealed
  check (env.keccak256 (preimage choice salt) = storedHash) .RevealMismatch
  let s := w.storage.savePlayerChoice player choice
  let s := s.setRevealed player round
  pure ({ w with storage := s }.publish (.revealSubmitted player))

/-! ## Resolving a round -/

/-- What an elimination does. -/
def World.eliminate (w : World G H) (player : Address) : World G H :=
  let s := w.storage.setPlayerActive player false
  let profile := s.loadPlayerProfile player
  let s := s.savePlayerProfile player
    { profile with gamesPlayed := satAddU32 profile.gamesPlayed 1, survivalStreak := 0 }
  { w with storage := s }.publish (.playerEliminated player)

/-- What the loops of `resolve_round` accumulate. -/
structure Tally (G H : Type) where
  activePlayers : List Address
  eliminated : ℕ
  survivors : ℕ
  world : World G H

/-- The body of the first pass (lines 373-390). -/
def eliminateAfk (t : Tally G H) (player : Address) : Tally G H :=
  if t.world.storage.isPlayerActive player then
    if (t.world.storage.loadPlayerChoice player).isNone then
      { t with world := t.world.eliminate player, eliminated := t.eliminated + 1 }
    else { t with activePlayers := t.activePlayers ++ [player] }
  else t

/-- The first pass of `resolve_round`. -/
def firstPass (w : World G H) : Tally G H :=
  w.storage.loadAllPlayers.foldl eliminateAfk ⟨[], 0, 0, w⟩

/-- The second pass: how many of `players` made `choice`. -/
def countChoice (s : ArenaStorage G) (choice : Choice) (players : List Address) : ℕ :=
  players.countP fun player => s.loadPlayerChoice player = some choice

/-- The body of the loops that eliminate one side (lines 412-427 and 442-457). -/
def keepSide (survivingChoice : Choice) (t : Tally G H) (player : Address) : Tally G H :=
  match t.world.storage.loadPlayerChoice player with
  | some choice =>
    if choice ≠ survivingChoice then
      { t with world := t.world.eliminate player, eliminated := t.eliminated + 1 }
    else { t with survivors := t.survivors + 1 }
  | none => t

/-- Lines 392-459 of `resolve_round`. -/
def decideRound (t : Tally G H) : Tally G H :=
  let headsCount := countChoice t.world.storage .Heads t.activePlayers
  let tailsCount := countChoice t.world.storage .Tails t.activePlayers
  let activeCount := t.activePlayers.length
  if headsCount = 0 ∨ tailsCount = 0 then { t with survivors := activeCount }
  else if headsCount = tailsCount then
    if activeCount = 2 then t.activePlayers.foldl (keepSide .Heads) t
    else { t with survivors := activeCount }
  else
    t.activePlayers.foldl (keepSide (if headsCount < tailsCount then .Heads else .Tails)) t

/-- `resolve_round()`, by anyone and at any time. -/
def resolveRound (w : World G H) : Result ArenaError (RoundResult × World G H) := do
  let config ← w.storage.loadConfig
  requireNotPaused config
  check (config.state = .InProgress) .InvalidStateTransition
  let players := w.storage.loadAllPlayers
  let tally := decideRound (firstPass w)
  let s := tally.world.storage
  let s := if tally.eliminated > 0 then s.decrementLiveSurvivors tally.eliminated else s
  let s := s.clearChoices
  let round ← unwrap (checkedAddU32 s.getRound 1)
  let s := s.setRound round
  let s := if tally.survivors ≤ 1 then
      let s := s.saveConfig { config with state := .Finished }
      match players.find? s.isPlayerActive with
      | some player => s.setWinner player
      | none => s
    else s
  pure (⟨round, tally.eliminated, tally.survivors⟩, { tally.world with storage := s })

/-- `auto_resolve()`. -/
def autoResolve (w : World G H) : Result ArenaError (RoundResult × World G H) := do
  let config ← w.storage.loadConfig
  check (config.state = .InProgress) .InvalidStateTransition
  check (¬ w.now ≤ config.joinDeadline) .DeadlineTooSoon
  resolveRound w

/-! ## Endings and payouts -/

/-- The profile of a winner who is paid `prize`. -/
def PlayerProfile.won (profile : PlayerProfile) (prize : ℤ) : PlayerProfile :=
  let survivalStreak := satAddU32 profile.survivalStreak 1
  { gamesPlayed := satAddU32 profile.gamesPlayed 1
    gamesWon := satAddU32 profile.gamesWon 1
    totalEarnings := satAddI128 profile.totalEarnings prize
    survivalStreak := survivalStreak
    bestStreak := if survivalStreak > profile.bestStreak then survivalStreak
      else profile.bestStreak }

/-- `claim(winner)`. -/
def claim (winner : Address) (w : World G H) : Result ArenaError (World G H) := do
  requireAuth auths winner
  let config ← w.storage.loadConfig
  requireNotPaused config
  check (config.state = .Finished) .GameNotFinished
  check (w.storage.isPrizeClaimed = false) .PrizeAlreadyClaimed
  let storedWinner ← okOr w.storage.getWinner .PlayerEliminated
  check (storedWinner = winner) .PlayerEliminated
  let totalPot ← unwrap (checkedMulI128 config.playerCount config.entryFee)
  let scaled ← unwrap (checkedMulI128 totalPot config.platformFeeBps)
  let platformFee ← unwrap (checkedDivI128 scaled 10000)
  let prize ← unwrap (checkedSubI128 totalPot platformFee)
  let w ← w.transfer env config.token env.here config.admin platformFee
  let w ← w.transfer env config.token env.here winner prize
  let s := w.storage.setPrizeClaimed
  let s := s.savePlayerProfile winner ((s.loadPlayerProfile winner).won prize)
  pure ({ w with storage := s }.publish (.prizeClaimed winner))

/-- `cancel_arena()`. -/
def cancelArena : World G H → Result ArenaError (World G H) :=
  administer auths (fun config => check (config.state = .Open) .InvalidStateTransition)
    (fun config => { config with state := .Cancelled }) fun _ => .arenaCancelled

/-- `expire_arena()`, by anyone. -/
def expireArena (w : World G H) : Result ArenaError (World G H) := do
  let config ← w.storage.loadConfig
  check (config.state = .Open) .InvalidStateTransition
  check (¬ w.now ≤ config.joinDeadline) .DeadlineTooSoon
  let s := w.storage.saveConfig { config with state := .Cancelled }
  pure ({ w with storage := s }.publish .arenaCancelled)

/-- `cleanup_arena()`. -/
def cleanupArena (w : World G H) : Result ArenaError (World G H) := do
  let config ← w.storage.loadConfig
  requireAuth auths config.admin
  check (¬ (config.state ≠ .Finished ∧ config.state ≠ .Cancelled)) .ArenaNotFinished
  pure { w with storage := w.storage.cleanupArenaData }

/-- `claim_refund(player)`. -/
def claimRefund (player : Address) (w : World G H) : Result ArenaError (World G H) := do
  requireAuth auths player
  let config ← w.storage.loadConfig
  check (config.state = .Cancelled) .ArenaNotCancelled
  check (w.storage.isRefundClaimed player = false) .RefundAlreadyClaimed
  check (player ∈ w.storage.loadAllPlayers) .NotAPlayer
  let w ← w.transfer env config.token env.here player config.entryFee
  pure ({ w with storage := w.storage.setRefundClaimed player }.publish (.refundClaimed player))

/-! ## Creator stake and yield -/

/-- `deposit_creator_stake(creator, amount)`. -/
def depositCreatorStake (creator : Address) (amount : ℤ) (w : World G H) :
    Result ArenaError (World G H) := do
  requireAuth auths creator
  check (¬ amount ≤ 0) .InvalidStakeAmount
  check (¬ w.storage.loadCreatorStake > 0) .StakeAlreadyDeposited
  let config ← w.storage.loadConfig
  let w ← w.transfer env config.token creator env.here amount
  let s := w.storage.saveCreatorStake amount
  let s := s.saveConfig { config with creatorStake := amount }
  pure ({ w with storage := s }.publish (.creatorStakeDeposited creator amount amount))

/-- Lines 672-684 of `withdraw_creator_stake`: what is paid back and what is
    slashed. -/
def slashStake (config : ArenaConfig) (stake : ℤ) : Result ArenaError (ℤ × ℤ) :=
  if config.state ≠ .Finished then do
    let scaled ← unwrap (checkedMulI128 stake config.slashRateBps)
    let slashed ← unwrap (checkedDivI128 scaled 10000)
    let remaining ← unwrap (checkedSubI128 stake slashed)
    pure (remaining, slashed)
  else pure (stake, 0)

/-- `withdraw_creator_stake(creator)`. -/
def withdrawCreatorStake (creator : Address) (w : World G H) : Result ArenaError (World G H) := do
  requireAuth auths creator
  let stake := w.storage.loadCreatorStake
  check (¬ stake ≤ 0) .NoStakeToWithdraw
  let config ← w.storage.loadConfig
  let split ← slashStake config stake
  let withdrawn := split.1
  let slashed := split.2
  let w ← w.transfer env config.token env.here creator withdrawn
  let s := w.storage.saveCreatorStake 0
  let s := s.saveConfig { config with creatorStake := 0 }
  pure ({ w with storage := s }.publish
    (if slashed > 0 then .stakeSlashed creator slashed withdrawn
      else .creatorStakeWithdrawn creator withdrawn false))

/-- `receive_rwa_yield(adapter, yield_amount, source_label)`, which moves no
    tokens. -/
def receiveRwaYield (adapter : Address) (yieldAmount : ℤ) (sourceLabel : String) (w : World G H) :
    Result ArenaError (ℕ × World G H) := do
  requireAuth auths adapter
  check (¬ yieldAmount ≤ 0) .InvalidEntryFee
  let config ← w.storage.loadConfig
  check (¬ config.state = .Finished) .ArenaAlreadyStarted
  let s := w.storage.setPrizePool (satAddI128 w.storage.getPrizePool yieldAmount)
  let s := s.addToGlobalPool yieldAmount
  let created := s.createRwaYield
    { id := 0, adapter := adapter, yieldAmount := yieldAmount, receivedAt := w.sequence
      sourceLabel := sourceLabel }
  pure (created.1.id, { w with storage := created.2 }.publish (.rwaYieldReceived yieldAmount))

/-! ## Runs -/

/-- A call of an entry point. -/
inductive Call where
  | initializeArena (args : InitializeArgs)
  | configureArena (newEntryFee : Option ℤ) (newMaxPlayers newJoinDeadline : Option ℕ)
  | startGame
  | finishGame
  | pause (reason : String)
  | unpause
  | updateTreasury (newTreasury : Address)
  | setCreationCooldown (cooldownSeconds : ℕ)
  | setSlashRate (slashRateBps : ℕ)
  | updateRoundBounds (min max : ℕ)
  | updatePlatformFee (newFeeBps : ℕ)
  | proposeAdmin (newAdmin : Address)
  | acceptAdmin
  | join (player : Address)
  | submitChoice (player : Address) (choice : Choice)
  | startRound (deadline : ℕ)
  | commitChoice (player : Address) (hash : BytesN 32)
  | revealChoice (player : Address) (choice : Choice) (salt : BytesN 32)
  | resolveRound
  | autoResolve
  | claim (winner : Address)
  | cancelArena
  | expireArena
  | cleanupArena
  | claimRefund (player : Address)
  | depositCreatorStake (creator : Address) (amount : ℤ)
  | withdrawCreatorStake (creator : Address)
  | receiveRwaYield (adapter : Address) (yieldAmount : ℤ) (sourceLabel : String)
  deriving DecidableEq, Repr

/-- The call `c` authorized by `auths`; the values returned are dropped. -/
def exec : Call → World G H → Result ArenaError (World G H)
  | .initializeArena a => initializeArena env a
  | .configureArena fee max deadline => configureArena auths fee max deadline
  | .startGame => startGame auths
  | .finishGame => finishGame auths
  | .pause reason => pause auths reason
  | .unpause => unpause auths
  | .updateTreasury a => updateTreasury auths a
  | .setCreationCooldown n => setCreationCooldown auths n
  | .setSlashRate n => setSlashRate auths n
  | .updateRoundBounds lo hi => updateRoundBounds env auths lo hi
  | .updatePlatformFee n => updatePlatformFee env auths n
  | .proposeAdmin a => proposeAdmin auths a
  | .acceptAdmin => acceptAdmin auths
  | .join p => join env auths p
  | .submitChoice p c => submitChoice auths p c
  | .startRound d => fun w => (·.2) <$> startRound env auths d w
  | .commitChoice p h => commitChoice auths p h
  | .revealChoice p c salt => revealChoice env auths p c salt
  | .resolveRound => fun w => (·.2) <$> resolveRound w
  | .autoResolve => fun w => (·.2) <$> autoResolve w
  | .claim p => claim env auths p
  | .cancelArena => cancelArena auths
  | .expireArena => expireArena
  | .cleanupArena => cleanupArena auths
  | .claimRefund p => claimRefund env auths p
  | .depositCreatorStake a x => depositCreatorStake env auths a x
  | .withdrawCreatorStake a => withdrawCreatorStake env auths a
  | .receiveRwaYield a x label => fun w => (·.2) <$> receiveRwaYield auths a x label w

/-- What can happen: a call to the arena, a change of its surroundings, the
    closing of a ledger. -/
inductive Action (H : Type) where
  | call (auths : List Address) (c : Call)
  | external (outside : H)
  | tick (time sequence : ℕ)

/-- One step. A failing call is rolled back and is no step; the time and the
    sequence number of the ledger never decrease. -/
inductive Step : World G H → Action H → World G H → Prop
  | call {w w' auths c} : (∀ a ∈ auths, env.mayAuthorize a) → exec env auths c w = .ok w' →
      Step w (.call auths c) w'
  | external {w outside} : env.evolves w.now w.outside outside →
      Step w (.external outside) { w with outside := outside }
  | tick {w time sequence} : w.now ≤ time → time ≤ u64Max → w.sequence ≤ sequence →
      Step w (.tick time sequence) { w with now := time, sequence := sequence }

end InverseArena.CoinArena
