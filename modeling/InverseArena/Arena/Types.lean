import InverseArena.Host.Types
import Mathlib.Data.Int.Notation

/-!
# Data of the arena contract

`contract/arena/src/types.rs`, with the payloads of the events of events.rs.
`u32` and `u64` values are natural numbers and `i128` values integers; the
operations on them saturate or wrap as in the source.
-/

namespace InverseArena.Arena

/-- `GameState`. -/
inductive GameState where
  | Open | Active | Finished | Cancelled | Settled
  deriving DecidableEq, Repr

/-- `Choice`. -/
inductive Choice where
  | Heads | Tails
  deriving DecidableEq, Repr

/-- `Choice::to_byte`. -/
def Choice.toByte : Choice → UInt8
  | .Heads => 0
  | .Tails => 1

/-- `ArenaConfig`. -/
structure ArenaConfig where
  admin : Address
  stakeToken : Address
  yieldVault : Address
  entryFee : ℤ
  state : GameState
  paused : Bool
  playerCount : ℕ
  cumulativeYield : ℤ
  commitDeadline : ℕ
  roundCount : ℕ
  oracleContract : Address
  factory : Address
  poolId : ℕ
  roundDuration : ℕ
  deriving DecidableEq, Repr

/-- `PendingAdmin`. -/
structure PendingAdmin where
  newAdmin : Address
  deriving DecidableEq, Repr

/-- `PendingUpgrade`. -/
structure PendingUpgrade where
  wasmHash : BytesN 32
  proposedAt : ℕ
  deriving DecidableEq, Repr

/-- `PlayerState`, with the values of its `Default` instance. -/
structure PlayerState where
  active : Bool := false
  roundsSurvived : ℕ := 0
  deriving DecidableEq, Repr

/-- `YieldSnapshot`. -/
structure YieldSnapshot where
  round : ℕ
  rateBps : ℕ
  accrued : ℤ
  deriving DecidableEq, Repr

/-- `RoundResult`. -/
structure RoundResult where
  round : ℕ
  eliminated : ℕ
  survivors : ℕ
  yieldSnapshot : YieldSnapshot
  deriving DecidableEq, Repr

/-- `LeaderboardEntry`. -/
structure LeaderboardEntry where
  player : Address
  roundsSurvived : ℕ
  deriving DecidableEq, Repr

/-- `ArenaError`. -/
inductive ArenaError where
  | Unauthorized | CannotCancelStartedGame | NotInitialised | RoundNotActive | RoundNotStarted
  | GracePeriodNotElapsed | InvalidReveal | MissingCommitment | ChoiceAlreadyRevealed
  | AlreadyInitialized | GameNotFinished | PrizeAlreadyClaimed | PlayerEliminated
  | NoPendingAdmin | InvalidVaultAddress | ContractPaused | InvalidGameState | NotInitialized
  | NotEnoughPlayers | PlayerBanned | CreatorCannotJoin | ArenaFull | InvalidPlayerLimits
  | ReentrantCall | RefundAlreadyClaimed | ArenaNotCancelled | NotAPlayer | DeadlineTooSoon
  | AlreadyJoined | UpgradeTimelockPending | NoPendingUpgrade | InvalidEntryFee
  | CommitPhaseEnded | InvalidDuration | VaultDepositFailed
  deriving DecidableEq, Repr

/-- What the functions of `ArenaEvents` publish. -/
inductive ArenaEvent where
  | initialized (admin : Address)
  | playerJoined (player : Address) (playerCount : ℕ)
  | playerBanned (admin player : Address)
  | playerUnbanned (admin player : Address)
  | playerLimitsConfigured (minPlayers maxPlayers : ℕ)
  | upgradeProposed (newWasmHash : BytesN 32) (proposedAt : ℕ)
  | upgraded (newWasmHash : BytesN 32)
  | gameStarted (round durationSeconds : ℕ)
  | roundResolved (round eliminated survivors : ℕ)
  | roundTied (round survivors : ℕ)
  | playerEliminated (player : Address) (round : ℕ)
  | gameFinished (winner : Address) (round : ℕ)
  | prizeClaimed (winner : Address) (amount yieldAmount : ℤ)
  | adminChanged (oldAdmin newAdmin : Address)
  | paused (caller : Address) (reason : String)
  | unpaused (caller : Address)
  | arenaExpired
  | vaultBalanceDecreased (previousBalance currentBalance : ℤ)
  | vaultOracleFailed (oracle : Address)
  | arenaCancelled (admin : Address)
  | refundClaimed (player : Address)
  | leaderboardUpdated
  | commitmentSubmitted (player : Address) (round : ℕ)
  | choiceRevealed (player : Address) (choice : Choice) (round : ℕ)
  deriving DecidableEq, Repr

end InverseArena.Arena
