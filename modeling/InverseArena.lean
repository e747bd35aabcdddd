import InverseArena.RwaAdapter.Backing
import InverseArena.RwaAdapter.Accrual
import InverseArena.RwaAdapter.Withdrawals
import InverseArena.RwaAdapter.Totals
import InverseArena.Arena.Contract
import InverseArena.Arena.Effects
import InverseArena.Arena.Membership
import InverseArena.Arena.Lifecycle
import InverseArena.Vault.Honest
import InverseArena.Vault.Reference
import InverseArena.Arena.Payouts
import InverseArena.Arena.Survivors
import InverseArena.Arena.CommitReveal
import InverseArena.Arena.RevealWindow
import InverseArena.Arena.FairField
import InverseArena.Vault.Custody
import InverseArena.Vault.WinnerTakesAll
import InverseArena.Vault.Refunds
import InverseArena.Vault.NoFundsLocked
import InverseArena.Composition.System
import InverseArena.Composition.Principal
import InverseArena.Library.ProRata
import InverseArena.Staking.Contract
import InverseArena.Staking.Pool
import InverseArena.Staking.Replay
import InverseArena.Staking.Statistics
import InverseArena.Staking.RoundTrip
import InverseArena.Staking.SharePrice
import InverseArena.Staking.SeedFloor
import InverseArena.Arena.RoundLimits
import InverseArena.Arena.EntryFees
import InverseArena.Arena.Organiser
import InverseArena.Arena.StateMachine
import InverseArena.Arena.History
import InverseArena.Payout.Contract
import InverseArena.Staking.Solvency
import InverseArena.Factory.Approved
import InverseArena.Factory.Pages
import InverseArena.Factory.Limits
import InverseArena.Payout.Idempotence
import InverseArena.Payout.Batch
import InverseArena.Factory.ActivePools
import InverseArena.Factory.Agreement
import InverseArena.Factory.Custody
import InverseArena.Library.Async
import InverseArena.Library.Interleaving
import InverseArena.Arena.Views
import InverseArena.Library.Pages
import InverseArena.Arena.PlayerPages
import InverseArena.Arena.Resolution
import InverseArena.Arena.Moves
import InverseArena.Vault.FailingReads
import InverseArena.Backend.RoundTypes
import InverseArena.Backend.Database
import InverseArena.Backend.RoundService
import InverseArena.Backend.Platform
import InverseArena.Backend.Transactions
import InverseArena.Backend.Replay
import InverseArena.Backend.Eliminations
import InverseArena.Backend.Calls
import InverseArena.Backend.Unsent
import InverseArena.Backend.CircuitBreaker
import InverseArena.Backend.Leaderboard
import InverseArena.Backend.Caching.Middleware
import InverseArena.Backend.Caching.Transparency
import InverseArena.Backend.RoundOrder
import InverseArena.Backend.Recovery
import InverseArena.Backend.Entitlement
import InverseArena.Backend.Payments.Types
import InverseArena.Backend.Payments.Service
import InverseArena.Backend.Payments.Platform
import InverseArena.Backend.Payments.Calls
import InverseArena.Backend.Payments.Replay
import InverseArena.Backend.Payments.Safety
import InverseArena.Backend.Payments.Repositories
import InverseArena.Backend.Payments.Credit
import InverseArena.Backend.Payments.Retries
import InverseArena.Library.Places
import InverseArena.Library.Holdings
import InverseArena.Backend.JsString
import InverseArena.Backend.Payments.Stellar
import InverseArena.Backend.Payments.Creation
import InverseArena.Backend.Payments.Stores
import InverseArena.Backend.Payments.Idempotence
import InverseArena.Backend.Payments.Audit
import InverseArena.Library.Numbers
import InverseArena.Library.Numerals
import InverseArena.Backend.Payments.Stroops
import InverseArena.Backend.Payments.PayoutIds
import InverseArena.Backend.Auth.Types
import InverseArena.Backend.Auth.Service
import InverseArena.Backend.Auth.Stores
import InverseArena.Backend.Auth.Calls
import InverseArena.Backend.Auth.OneTime
import InverseArena.Backend.Auth.Sessions
import InverseArena.Backend.Auth.Revocation
import InverseArena.Backend.Auth.Theft
import InverseArena.Backend.Stream.FanOut
import InverseArena.Frontend.ContractEvents
import InverseArena.Library.Base64
import InverseArena.Frontend.ArenaStream
import InverseArena.Library.NumberTexts
import InverseArena.Library.Json
import InverseArena.Library.Buffers
import InverseArena.Frontend.CommitReveal
import InverseArena.Frontend.CommitmentStore
import InverseArena.Frontend.Revealing
import InverseArena.CoinArena.Storage
import InverseArena.CoinArena.Effects
import InverseArena.CoinArena.Replay
import InverseArena.CoinArena.Control
import InverseArena.CoinArena.CreatorStake
import InverseArena.CoinArena.Money
import InverseArena.CoinArena.Refunds
import InverseArena.CoinArena.PrizePool
import InverseArena.CoinArena.Cleanup
import InverseArena.CoinArena.Binding
import InverseArena.CoinArena.Deadlines
import InverseArena.Library.Handover
import InverseArena.Oracle.Contract
import InverseArena.Arena.Administration
import InverseArena.Composition.Governance
import InverseArena.Composition.OracleRates
import InverseArena.Library.Utf8
import InverseArena.Library.EventStream
import InverseArena.Composition.EventWire
import InverseArena.Frontend.StreamConnection
import InverseArena.Composition.Spectators
import InverseArena.Library.Replies
import InverseArena.Library.Patterns
import InverseArena.Frontend.ContractErrors
import InverseArena.Frontend.Submission
import InverseArena.Library.Tables
import InverseArena.Backend.Standings
import InverseArena.Backend.Scores
import InverseArena.CoinArena.Outcome
import InverseArena.CoinArena.Endings
import InverseArena.Backend.Caching.OracleYield
