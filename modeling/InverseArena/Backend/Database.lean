import InverseArena.Backend.RoundTypes
import InverseArena.Library.Async
import Mathlib.Logic.Function.Basic

/-!
# The round tables

The tables of `backend/prisma/schema.prisma` that the round service reads and
writes, as PostgreSQL keeps them at its default isolation, read committed: a
statement outside a transaction sees and changes committed rows; what a
transaction writes shows up at its commit, and until then it holds the lock of
the row, so that every other writer of the row waits.

Results:
* `updateRound_eq_some`, `claimRound_cases`, `createLogs_eq_some`, `commit_eq_some`:
  when a statement is executed, and what it leaves behind.
-/

namespace InverseArena.Backend

/-- A row of `rounds`. Its state is one of the four that the code writes, so that
    `parseState` is the identity on it. -/
structure RoundRow (N : Type) where
  arenaId : String
  roundNumber : ℕ
  state : RoundState
  metadata : Option (RoundMetadata N)

/-- A row of `users`. -/
structure UserRow where
  walletAddress : String

/-- A row of `elimination_logs`. -/
structure EliminationLog where
  roundId : String
  userId : String
  reason : String
  deriving DecidableEq, Repr

/-- What a transaction in progress has written. -/
structure Transaction (N : Type) where
  claimed : Option (String × RoundRow N)
  logs : List EliminationLog

/-- The committed rows, the transactions in progress by the call they belong to,
    and the call that holds the lock of a round's row. -/
structure Database (N : Type) where
  rounds : String → Option (RoundRow N)
  users : String → Option UserRow
  eliminationLogs : List EliminationLog
  transactions : ℕ → Option (Transaction N)
  rowLock : String → Option ℕ

namespace Database

variable {N : Type} (d : Database N) (i : ℕ)

/-- The logs of a round. -/
def logsOf (roundId : String) : List EliminationLog :=
  d.eliminationLogs.filter (·.roundId = roundId)

/-- `prisma.round.update({ where: { id }, data: { state } })`, once no transaction
    holds the row; without the row it throws. -/
def updateRound (roundId : String) (state : RoundState) : Option (Database N) :=
  if d.rowLock roundId = none then
    (d.rounds roundId).map fun row =>
      { d with rounds := Function.update d.rounds roundId (some { row with state := state }) }
  else none

/-- `BEGIN`. -/
def beginTransaction : Database N :=
  { d with transactions := Function.update d.transactions i (some ⟨none, []⟩) }

/-- The transaction `tx` of the call has written `row` and holds its lock. -/
def hold (tx : Transaction N) (roundId : String) (row : RoundRow N) : Database N :=
  { d with
    transactions :=
      Function.update d.transactions i (some { tx with claimed := some (roundId, row) })
    rowLock := Function.update d.rowLock roundId (some i) }

/-- `tx.round.updateMany({ where: { id, state in [OPEN, CLOSED] }, .. })`, with the
    number of rows it changed. It waits while another transaction holds the row
    and then looks at the row as committed. -/
def claimRound (roundId : String) (state : RoundState) (metadata : RoundMetadata N) :
    Option (ℕ × Database N) :=
  match d.transactions i with
  | none => none
  | some tx =>
    if d.rowLock roundId = none then
      match d.rounds roundId with
      | some row =>
        if row.state.resolvable then
          some (1, d.hold i tx roundId { row with state := state, metadata := some metadata })
        else some (0, d)
      | none => some (0, d)
    else none

/-- `tx.eliminationLog.createMany({ data: logs })`: each log refers to a round and
    to a user. -/
def createLogs (logs : List EliminationLog) : Option (Database N) :=
  match d.transactions i with
  | none => none
  | some tx =>
    if ∀ log ∈ logs, (d.rounds log.roundId).isSome ∧ (d.users log.userId).isSome then
      some { d with
        transactions :=
          Function.update d.transactions i (some { tx with logs := tx.logs ++ logs }) }
    else none

/-- The transaction of the call ends and its locks are free again. -/
def release : Database N :=
  { d with
    transactions := Function.update d.transactions i none
    rowLock := fun roundId => if d.rowLock roundId = some i then none else d.rowLock roundId }

/-- The rows after the writes of `tx`. -/
def apply (tx : Transaction N) : Database N :=
  { d with
    rounds := match tx.claimed with
      | some (roundId, row) => Function.update d.rounds roundId (some row)
      | none => d.rounds
    eliminationLogs := d.eliminationLogs ++ tx.logs }

/-- `COMMIT`. -/
def commit : Option (Database N) := (d.transactions i).map fun tx => (d.apply tx).release i

/-- `ROLLBACK`, by the client or by the server when it gives a transaction up. -/
def rollback : Database N := d.release i

/-- The committed rows of two databases agree. -/
structure SameRows (d d' : Database N) : Prop where
  rounds : d'.rounds = d.rounds
  users : d'.users = d.users
  eliminationLogs : d'.eliminationLogs = d.eliminationLogs

variable {d i} {d' : Database N}

theorem SameRows.refl : SameRows d d := ⟨rfl, rfl, rfl⟩

theorem SameRows.trans {d'' : Database N} (h : SameRows d d') (h' : SameRows d' d'') :
    SameRows d d'' :=
  ⟨h'.rounds.trans h.rounds, h'.users.trans h.users,
    h'.eliminationLogs.trans h.eliminationLogs⟩

theorem updateRound_eq_some {roundId : String} {state : RoundState} :
    d.updateRound roundId state = some d' ↔ d.rowLock roundId = none ∧ ∃ row,
      d.rounds roundId = some row ∧
      { d with rounds := Function.update d.rounds roundId (some { row with state := state }) } =
        d' := by
  unfold updateRound
  split_ifs with hlock
  · simp [hlock]
  · simp [hlock]

theorem claimRound_cases {roundId : String} {state : RoundState} {metadata : RoundMetadata N}
    {count : ℕ} (h : d.claimRound i roundId state metadata = some (count, d')) :
    ∃ tx, d.transactions i = some tx ∧ d.rowLock roundId = none ∧
      ((∃ row, d.rounds roundId = some row ∧ row.state.resolvable = true ∧ count = 1 ∧
          d' = d.hold i tx roundId { row with state := state, metadata := some metadata }) ∨
        ((∀ row, d.rounds roundId = some row → row.state.resolvable = false) ∧ count = 0 ∧
          d' = d)) := by
  unfold claimRound at h
  split at h
  · cases h
  · rename_i tx htx
    split_ifs at h with hlock
    refine ⟨tx, htx, hlock, ?_⟩
    split at h
    · rename_i row hrow
      split_ifs at h with hres
      · cases h
        exact .inl ⟨row, hrow, hres, rfl, rfl⟩
      · cases h
        refine .inr ⟨fun row' hrow' => ?_, rfl, rfl⟩
        obtain rfl : row = row' := Option.some.inj (hrow.symm.trans hrow')
        simpa using hres
    · rename_i hrow
      cases h
      refine .inr ⟨fun row' hrow' => ?_, rfl, rfl⟩
      rw [hrow] at hrow'
      cases hrow'

theorem claimRound_eq_hold {roundId : String} {state : RoundState} {metadata : RoundMetadata N}
    {tx : Transaction N} {row : RoundRow N} (htx : d.transactions i = some tx)
    (hfree : d.rowLock roundId = none) (hrow : d.rounds roundId = some row)
    (hres : row.state.resolvable = true) : d.claimRound i roundId state metadata =
      some (1, d.hold i tx roundId { row with state := state, metadata := some metadata }) := by
  unfold claimRound
  rw [htx, hrow]
  dsimp only
  rw [if_pos hfree, if_pos hres]

theorem createLogs_eq_some {logs : List EliminationLog} : d.createLogs i logs = some d' ↔
    ∃ tx, d.transactions i = some tx ∧
      (∀ log ∈ logs, (d.rounds log.roundId).isSome ∧ (d.users log.userId).isSome) ∧
      { d with
        transactions :=
          Function.update d.transactions i (some { tx with logs := tx.logs ++ logs }) } = d' := by
  unfold createLogs
  cases d.transactions i with
  | none => simp
  | some tx =>
    split_ifs with hlogs
    · simp only [Option.some.injEq, exists_eq_left', and_iff_right hlogs]
    · simp [hlogs]

theorem commit_eq_some : d.commit i = some d' ↔
    ∃ tx, d.transactions i = some tx ∧ (d.apply tx).release i = d' := by
  unfold commit
  rw [Option.map_eq_some_iff]

end Database

end InverseArena.Backend
