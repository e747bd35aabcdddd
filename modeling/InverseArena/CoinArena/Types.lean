import InverseArena.Host.Types
import Mathlib.Data.Int.Notation

/-!
# Data of the coin arena

`contracts/arena/src/types.rs`, with the errors of errors.rs and the payloads of
the events of events.rs. `u32` and `u64` values are natural numbers and `i128`
values integers; the operations on them trap or saturate as in the source.
-/

namespace InverseArena.CoinArena

/-- `GameState`. -/
inductive GameState where
  | Open | InProgress | Finished | Cancelled
  deriving DecidableEq, Repr

/-- `Choice`. -/
inductive Choice where
  | Heads | Tails
  deriving DecidableEq, Repr

/-- The `choice_byte` of `reveal_choice`. -/
def Choice.byte : Choice → UInt8
  | .Heads => 0
  | .Tails => 1

/-- `ArenaConfig`. -/
structure ArenaConfig where
  admin : Address
  token : Address
  entryFee : ℤ
  maxPlayers : ℕ
  joinDeadline : ℕ
  state : GameState
  paused : Bool
  playerCount : ℕ
  treasuryAddress : Address
  lastCreationTimestamp : ℕ
  creationCooldownSeconds : ℕ
  creatorStake : ℤ
  slashRateBps : ℕ
  platformFeeBps : ℕ
  deriving DecidableEq, Repr

/-- `GlobalStats`, with the values of its `Default` instance. -/
structure GlobalStats where
  totalArenas : ℕ := 0
  liveSurvivors : ℕ := 0
  globalPoolTotal : ℤ := 0
  deriving DecidableEq, Repr

/-- `RwaYieldRecord`. -/
structure RwaYieldRecord where
  id : ℕ
  adapter : Address
  yieldAmount : ℤ
  receivedAt : ℕ
  sourceLabel : String
  deriving DecidableEq, Repr

/-- `RoundResult`. -/
structure RoundResult where
  round : ℕ
  eliminated : ℕ
  survivors : ℕ
  deriving DecidableEq, Repr

/-- `PlayerProfile`, with the values of its `Default` instance. -/
structure PlayerProfile where
  gamesPlayed : ℕ := 0
  gamesWon : ℕ := 0
  totalEarnings : ℤ := 0
  survivalStreak : ℕ := 0
  bestStreak : ℕ := 0
  deriving DecidableEq, Repr

/-- `ArenaError`. -/
inductive ArenaError where
  | ConfigNotFound | InvalidEntryFee | DeadlineTooSoon | ArenaAlreadyStarted
  | InvalidStateTransition | ArenaFull | DeadlinePassed | PlayerEliminated | PrizeAlreadyClaimed
  | GameNotFinished | NotAPlayer | TransferFailed | InsufficientBalance | RefundAlreadyClaimed
  | ArenaNotCancelled | StakeAlreadyDeposited | CooldownNotElapsed | TreasuryNotSet
  | InvalidSlashRate | InvalidStakeAmount | ContractPaused | TokenNotApproved
  | MaxActivePoolsReached | NoActivePoolEntry | TokenAlreadyApproved | AlreadyJoined
  | ArenaNotFinished | NoStakeToWithdraw | RoundNotStarted | AlreadyCommitted | NoCommitFound
  | RevealMismatch | AlreadyRevealed | NoPendingAdmin | NotProposedAdmin | RoundDeadlineNotPassed
  | RoundDeadlinePassed | InvalidRoundBounds | InvalidRoundDuration
  deriving DecidableEq, Repr

/-- What the functions of `ArenaEvents` publish. -/
inductive ArenaEvent where
  | arenaInitialized (admin : Address)
  | arenaConfigured
  | gameStarted
  | gameFinished
  | playerJoined (player : Address)
  | choiceSubmitted (player : Address)
  | playerEliminated (player : Address)
  | prizeClaimed (winner : Address)
  | arenaCancelled
  | refundClaimed (player : Address)
  | contractPaused (admin : Address) (reason : String)
  | contractUnpaused (admin : Address)
  | treasuryUpdated (admin newTreasury : Address)
  | cooldownConfigured (admin : Address) (cooldownSeconds : ℕ)
  | creatorStakeDeposited (creator : Address) (amount total : ℤ)
  | creatorStakeWithdrawn (creator : Address) (amount : ℤ) (slashed : Bool)
  | stakeSlashed (creator : Address) (slashedAmount remainingReturned : ℤ)
  | slashRateConfigured (admin : Address) (slashRateBps : ℕ)
  | rwaYieldReceived (amount : ℤ)
  | roundStarted (round deadline : ℕ)
  | commitSubmitted (player : Address)
  | revealSubmitted (player : Address)
  | adminTransferProposed (currentAdmin proposedAdmin : Address)
  | adminTransferAccepted (newAdmin : Address)
  | roundBoundsUpdated (admin : Address) (min max : ℕ)
  deriving DecidableEq, Repr

end InverseArena.CoinArena
