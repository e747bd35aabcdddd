import InverseArena.Arena.Contract
import InverseArena.Arena.Views
import InverseArena.Backend.Database
import InverseArena.Library.Interleaving

/-!
# The round service

`backend/src/services/roundService.ts`, `onChainReader.ts` and the parts of
`roundRepository.ts` they use, as programs that await the database and the RPC
server. Logging, metrics counters and the pauses between two polls are left out:
they change nothing that is modelled, and a crash in a pause is a crash before
the request that follows it.
-/

namespace InverseArena.Backend

open Async

variable {N : Type}

/-! ## Requests -/

/-- What the service awaits. -/
inductive Request (N : Type) where
  /-- `prisma.round.findUnique({ where: { id } })`. -/
  | findRound (roundId : String)
  /-- `prisma.round.update({ where: { id }, data: { state } })`. -/
  | updateRound (roundId : String) (state : RoundState)
  | beginTransaction
  /-- `tx.round.updateMany`, on a round that is still OPEN or CLOSED. -/
  | claimRound (roundId : String) (state : RoundState) (metadata : RoundMetadata N)
  /-- `tx.eliminationLog.createMany`. -/
  | createLogs (logs : List EliminationLog)
  | commit
  | rollback
  /-- The `prisma.round.findMany` of `refreshArenaMetrics`. -/
  | countActiveArenas
  /-- The Redis `DEL` of `invalidateArenaStats`. -/
  | invalidateArenaStats (arenaId : String)
  | getAccount (publicKey : String)
  | simulateTransaction (contractId : String) (call : ContractCall)
  | sendTransaction (contractId : String) (call : ContractCall)
  | getTransaction (hash : String)

/-- What a fulfilled request yields. -/
abbrev Answer (N : Type) : Request N → Type
  | .findRound _ => Option (RoundRow N)
  | .updateRound _ _ => Unit
  | .beginTransaction => Unit
  | .claimRound _ _ _ => ℕ
  | .createLogs _ => Unit
  | .commit => Unit
  | .rollback => Unit
  | .countActiveArenas => ℕ
  | .invalidateArenaStats _ => Unit
  | .getAccount _ => Unit
  | .simulateTransaction _ _ => Simulation
  | .sendTransaction _ _ => SendResponse
  | .getTransaction _ => TransactionStatus

/-- A program of the service. -/
abbrev Program (N : Type) := Async (Answer N) RoundError

/-- Awaits the answer to `q`. -/
def ask (q : Request N) : Program N (Answer N q) := request q

/-- What the service computes with: its environment variables and the functions
    of the SDK, which throw or return. -/
structure Service where
  /-- `process.env.ARENA_ADMIN_SECRET`. -/
  adminSecret : Option String
  /-- `Keypair.fromSecret(secret).publicKey()`. -/
  publicKey : String → Except RoundError String
  /-- `new Contract(contractId)`. -/
  contract : String → Except RoundError Unit
  /-- `Api.assembleTransaction(tx, simulated)`, signed; `none` if `rpc.Api` has no
      such member, as in version 13.3.0, which `package-lock.json` pins. -/
  assembleTransaction : Option (Except RoundError Unit)
  /-- `getSourcePublicKey()`. -/
  sourcePublicKey : String
  /-- `stellarConfig.roundConfirmMaxPolls`, a positive number. -/
  roundConfirmMaxPolls : ℕ
  roundConfirmMaxPolls_pos : 0 < roundConfirmMaxPolls

variable (svc : Service)

/-! ## On-chain resolution -/

/-- The polling loop of `submitOnChainResolve` (lines 80-106), with the attempts
    that are left. -/
def pollTransaction (hash : String) (roundNumber : ℕ) : ℕ → Program N ℕ
  | 0 => throw (.timedOut svc.roundConfirmMaxPolls hash)
  | attempts + 1 => do
    match ← ask (.getTransaction hash) with
    | .SUCCESS => pure roundNumber
    | .FAILED errorResultXdr => throw (.transactionFailed hash (errorResultXdr.getD "unknown"))
    | .NOT_FOUND => pollTransaction hash roundNumber attempts

/-- `submitOnChainResolve(contractId, roundNumber)` (lines 37-109). -/
def submitOnChainResolve (contractId : String) (roundNumber : ℕ) : Program N ℕ := do
  let signerSecret ← orThrow svc.adminSecret .adminSecretMissing
  let signer ← done (svc.publicKey signerSecret)
  ask (.getAccount signer)
  done (svc.contract contractId)
  match ← ask
      (.simulateTransaction contractId (.resolve_round roundNumber)) with
  | .error message => throw (.simulationFailed message)
  | .empty => throw .simulationEmpty
  | .success _ =>
    let prepared ← orThrow svc.assembleTransaction .notAFunction
    done prepared
    let sendResult ← ask
      (.sendTransaction contractId (.resolve_round roundNumber))
    if sendResult.status = .PENDING ∨ sendResult.status = .DUPLICATE then
      pollTransaction svc sendResult.hash roundNumber svc.roundConfirmMaxPolls
    else throw (.sendFailed sendResult.errorResultXdr sendResult.status)

/-! ## Reading the chain -/

/-- `simulateViewCall(contractId, functionName, args)`. -/
def simulateViewCall (contractId : String) (call : ContractCall) : Program N Native := do
  ask (.getAccount svc.sourcePublicKey)
  done (svc.contract contractId)
  match ← ask (.simulateTransaction contractId call) with
  | .error message => throw (.viewFailed call message)
  | .empty => throw (.viewEmpty call)
  | .success none => throw (.viewEmpty call)
  | .success (some result) => pure result

/-- The addresses of the active players among the entries; `filter` is no function
    of anything but an array. -/
def activeAddresses : Native → Except RoundError (List String)
  | .entries players => .ok ((players.filter (·.2.active)).map (·.1))
  | .null => .error .notAnArray
  | .text _ => .error .notAnArray

/-- `getOnChainActivePlayerIds(contractId, page)`: whatever fails, the list is
    empty. -/
def getOnChainActivePlayerIds (contractId : String) (page : ℕ) : Program N (List String) :=
  tryCatch
    (do
      let result ← simulateViewCall svc contractId (.get_players page)
      done (activeAddresses result))
    fun _ => pure []

/-- `String(result)`; an entry of a player list is written as its address and
    `[object Object]`. -/
def Native.toText : Native → Option String
  | .null => none
  | .text s => some s
  | .entries players =>
    some (",".intercalate (players.map fun entry => entry.1 ++ ",[object Object]"))

/-- `getOnChainWinner(contractId)`. -/
def getOnChainWinner (contractId : String) : Program N (Option String) :=
  tryCatch
    (do
      let result ← simulateViewCall svc contractId .get_winner
      pure result.toText)
    fun _ => pure none

/-! ## Resolving and closing a round -/

section

variable [JsNumber N]

/-- `computePayouts` (lines 207-239). -/
def computePayouts (arenaContractId : String) (playerChoices : List (PlayerChoice N))
    (eliminatedPlayers : List String) (oracleYield : N) : Program N (List (Payout N)) := do
  match ← getOnChainWinner svc arenaContractId with
  | none => pure []
  | some "" => pure []
  | some onChainWinner =>
    let eliminatedStake := ((playerChoices.filter (·.userId ∈ eliminatedPlayers)).map
      (·.stake)).foldl (· + ·) ((0 : ℕ) : N)
    let prizePool := eliminatedStake * (((1 : ℕ) : N) + oracleYield / ((100 : ℕ) : N))
    let winnerChoice := playerChoices.find? (·.userId = onChainWinner)
    let winnerStake := (winnerChoice.map (·.stake)).getD ((0 : ℕ) : N)
    pure [⟨onChainWinner, winnerStake + prizePool⟩]

/-- `computePoolBalances` (lines 252-264). -/
def computePoolBalances (playerChoices : List (PlayerChoice N))
    (eliminatedPlayers : List String) : String → Option N :=
  playerChoices.foldl (fun balances player =>
    Function.update balances player.userId
      (some (if player.userId ∈ eliminatedPlayers then ((0 : ℕ) : N) else player.stake)))
    fun _ => none

end

/-- `prisma.$transaction(body)`: commits if `body` returns, rolls back if it
    throws. -/
def transaction {α : Type} (body : Program N α) : Program N α := do
  ask .beginTransaction
  let result ← tryCatch body fun e => do
    tryCatch (ask .rollback) fun _ => pure ()
    throw e
  ask .commit
  pure result

/-- The logs that `resolveAtomically` writes. -/
def eliminationLogs (roundId : String) (eliminatedPlayers : List String) : List EliminationLog :=
  eliminatedPlayers.map fun userId => ⟨roundId, userId, "ELIMINATED_BY_ROUND"⟩

/-- The callback of `resolveAtomically` (lines 121-154). -/
def claimAndLog (roundId : String) (state : RoundState) (resolution : RoundResolution N)
    (metadata : RoundMetadata N) : Program N Unit := do
  let count ← ask
    (.claimRound roundId state { metadata with resolution := some resolution })
  check (count ≠ 0) (.resolvedConcurrently roundId)
  if resolution.eliminatedPlayers.length > 0 then
    ask (.createLogs (eliminationLogs roundId resolution.eliminatedPlayers))
  else pure ()

/-- `RoundRepository.resolveAtomically`. -/
def resolveAtomically (roundId : String) (state : RoundState) (resolution : RoundResolution N)
    (metadata : RoundMetadata N) : Program N Unit :=
  transaction (claimAndLog roundId state resolution metadata)

/-- `RoundService.resolveRound` (lines 111-192); its outer `catch` only counts the
    failure and throws it again. -/
def resolveRound [JsNumber N] (input : RoundInput N) : Program N (RoundResolution N) := do
  let found ← ask (.findRound input.roundId)
  let round ← orThrow found .roundNotFound
  check (round.state = .OPEN ∨ round.state = .CLOSED) (.alreadyInState round.state)
  let _ ← submitOnChainResolve svc input.arenaContractId round.roundNumber
  let activePlayerIds ← getOnChainActivePlayerIds svc input.arenaContractId 0
  let eliminatedPlayers := input.allActivePlayerIds.filter (· ∉ activePlayerIds)
  let payouts ← computePayouts svc input.arenaContractId input.playerChoices eliminatedPlayers
    input.oracleYield
  let poolBalances := computePoolBalances input.playerChoices eliminatedPlayers
  let result : RoundResolution N := ⟨eliminatedPlayers, payouts, poolBalances⟩
  let metadata : RoundMetadata N :=
    ⟨input.playerChoices, input.oracleYield, input.randomSeed, some result⟩
  resolveAtomically input.roundId .RESOLVED result metadata
  let _ ← ask .countActiveArenas
  tryCatch (ask (.invalidateArenaStats round.arenaId)) fun _ => pure ()
  pure result

/-- `RoundService.closeRound` (lines 241-250). -/
def closeRound (roundId : String) : Program N RoundState := do
  let found ← ask (.findRound roundId)
  let round ← orThrow found (.roundIdNotFound roundId)
  check (round.state = .OPEN) (.notOpen round.state)
  ask (.updateRound roundId .CLOSED)
  pure .CLOSED

end InverseArena.Backend
