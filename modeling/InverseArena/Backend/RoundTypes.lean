import InverseArena.Arena.Types

/-!
# Data of the round service

`backend/src/types/round.ts` and what `roundService.ts` and `onChainReader.ts`
exchange with the RPC server. Numbers are of a type `N` with the operations the
code applies to them; nothing is assumed of these operations.

Results:
* `ne_of_isUuid_of_isStrkey`: an id that the schema accepts is never an address
  as the chain writes it.
-/

namespace InverseArena.Backend

/-- The operations on JavaScript numbers that the round service uses. -/
class JsNumber (N : Type) extends Add N, Mul N, Div N, LT N, LE N, NatCast N where
  finite : N → Prop

/-- `RoundState`. -/
inductive RoundState where
  | OPEN | CLOSED | RESOLVED | SETTLED
  deriving DecidableEq, Repr

/-- The states that `resolveAtomically` and `resolveRound` accept. -/
def RoundState.resolvable : RoundState → Bool
  | OPEN | CLOSED => true
  | RESOLVED | SETTLED => false

/-- `PlayerChoice`. -/
structure PlayerChoice (N : Type) where
  userId : String
  choice : String
  stake : N

/-- `RoundInput`. -/
structure RoundInput (N : Type) where
  roundId : String
  playerChoices : List (PlayerChoice N)
  allActivePlayerIds : List String
  oracleYield : N
  randomSeed : Option String
  arenaContractId : String

/-- `Payout`. -/
structure Payout (N : Type) where
  userId : String
  amount : N

/-- `RoundResolution`. -/
structure RoundResolution (N : Type) where
  eliminatedPlayers : List String
  payouts : List (Payout N)
  poolBalances : String → Option N

/-- `RoundMetadata`. -/
structure RoundMetadata (N : Type) where
  playerChoices : List (PlayerChoice N)
  oracleYield : N
  randomSeed : Option String
  resolution : Option (RoundResolution N)

/-! ## What the schema accepts -/

/-- `[0-9a-fA-F]`. -/
def isHexDigit (c : Char) : Bool :=
  ('0' ≤ c && c ≤ '9') || ('a' ≤ c && c ≤ 'f') || ('A' ≤ c && c ≤ 'F')

/-- `[A-Z2-7]`. -/
def isBase32 (c : Char) : Bool := ('A' ≤ c && c ≤ 'Z') || ('2' ≤ c && c ≤ '7')

/-- `z.string().uuid()`: hex digits in groups of 8, 4, 4, 4 and 12. -/
def isUuid (s : String) : Bool :=
  s.toList.length = 36 && s.toList.zipIdx.all fun (c, i) =>
    if i = 8 ∨ i = 13 ∨ i = 18 ∨ i = 23 then c = '-' else isHexDigit c

/-- `/^C[A-Z2-7]{55}$/`. -/
def isContractId (s : String) : Bool :=
  match s.toList with
  | 'C' :: cs => cs.length = 55 && cs.all isBase32
  | _ => false

/-- `/^[a-f0-9]{64}$/`. -/
def isSeed (s : String) : Bool :=
  s.toList.length = 64 && s.toList.all fun c => ('0' ≤ c && c ≤ '9') || ('a' ≤ c && c ≤ 'f')

variable {N : Type} [JsNumber N]

/-- `PlayerChoiceSchema`. -/
structure PlayerChoiceSchema (p : PlayerChoice N) : Prop where
  userId : isUuid p.userId = true
  choice : p.choice = "heads" ∨ p.choice = "tails"
  stake : JsNumber.finite p.stake ∧ ((0 : ℕ) : N) < p.stake

/-- `RoundInputSchema`. -/
structure RoundInputSchema (input : RoundInput N) : Prop where
  roundId : isUuid input.roundId = true
  playerChoices : ∀ p ∈ input.playerChoices, PlayerChoiceSchema p
  playerChoices_length : 1 ≤ input.playerChoices.length ∧ input.playerChoices.length ≤ 500
  allActivePlayerIds : ∀ id ∈ input.allActivePlayerIds, isUuid id = true
  allActivePlayerIds_length :
    1 ≤ input.allActivePlayerIds.length ∧ input.allActivePlayerIds.length ≤ 500
  oracleYield : JsNumber.finite input.oracleYield ∧ ((0 : ℕ) : N) ≤ input.oracleYield ∧
    input.oracleYield ≤ ((100 : ℕ) : N)
  randomSeed : ∀ seed, input.randomSeed = some seed → isSeed seed = true
  arenaContractId : isContractId input.arenaContractId = true

/-! ## Addresses -/

/-- An account or contract address as the SDK writes it: `G` or `C` and 55
    characters of base 32. -/
def isStrkey (s : String) : Bool :=
  match s.toList with
  | c :: cs => (c = 'G' || c = 'C') && (cs.length = 55 && cs.all isBase32)
  | [] => false

theorem length_of_isUuid {s : String} (h : isUuid s = true) : s.toList.length = 36 := by
  unfold isUuid at h
  simp only [Bool.and_eq_true, decide_eq_true_eq] at h
  exact h.1

theorem length_of_isStrkey {s : String} (h : isStrkey s = true) : s.toList.length = 56 := by
  unfold isStrkey at h
  split at h
  · rename_i c cs hs
    simp only [Bool.and_eq_true, decide_eq_true_eq] at h
    rw [hs, List.length_cons, h.2.1]
  · cases h

theorem ne_of_isUuid_of_isStrkey {s t : String} (hs : isUuid s = true) (ht : isStrkey t = true) :
    s ≠ t := by
  rintro rfl
  have h36 := length_of_isUuid hs
  have h56 := length_of_isStrkey ht
  omega

/-! ## Exchanges with the RPC server -/

/-- The calls to the arena contract that the service makes, with their arguments. -/
inductive ContractCall where
  | resolve_round (roundNumber : ℕ)
  | get_players (page : ℕ)
  | get_winner
  deriving DecidableEq, Repr

/-- What `scValToNative` makes of the values these calls return. -/
inductive Native where
  | null
  | text (s : String)
  | entries (players : List (String × Arena.PlayerState))

/-- A simulation as `Api.isSimulationError` and `Api.isSimulationSuccess` see it;
    `empty` is neither. -/
inductive Simulation where
  | error (message : String)
  | empty
  | success (result : Option Native)

/-- The statuses of `sendTransaction`. -/
inductive SendStatus where
  | PENDING | DUPLICATE | ERROR | TRY_AGAIN_LATER
  deriving DecidableEq, Repr

/-- The answer to `sendTransaction`. -/
structure SendResponse where
  status : SendStatus
  hash : String
  errorResultXdr : Option String

/-- The answer to `getTransaction`. -/
inductive TransactionStatus where
  | SUCCESS
  | FAILED (errorResultXdr : Option String)
  | NOT_FOUND

/-- What the service throws. -/
inductive RoundError where
  /-- `Round not found`. -/
  | roundNotFound
  /-- `Round ${roundId} not found`. -/
  | roundIdNotFound (roundId : String)
  /-- `Round already in state: ${state}`. -/
  | alreadyInState (state : RoundState)
  /-- `Round is not OPEN (current state: ${state})`. -/
  | notOpen (state : RoundState)
  /-- `ARENA_ADMIN_SECRET is not configured. Cannot submit on-chain resolve_round.` -/
  | adminSecretMissing
  /-- `resolve_round simulation failed: ${error}`. -/
  | simulationFailed (message : String)
  /-- `resolve_round simulation returned no result`. -/
  | simulationEmpty
  /-- `resolve_round transaction failed: hash=${hash} errorResultXdr=..`. -/
  | transactionFailed (hash errorResultXdr : String)
  /-- `resolve_round transaction timed out after ${maxPolls} polls: hash=${hash}`. -/
  | timedOut (maxPolls : ℕ) (hash : String)
  /-- `resolve_round send failed: ..`. -/
  | sendFailed (errorResultXdr : Option String) (status : SendStatus)
  /-- `Round ${roundId} was already resolved by a concurrent request`. -/
  | resolvedConcurrently (roundId : String)
  /-- `Simulation error for ${functionName}: ${error}`. -/
  | viewFailed (call : ContractCall) (message : String)
  /-- `Simulation returned no result for ${functionName}`. -/
  | viewEmpty (call : ContractCall)
  /-- A `TypeError`: the value has no `filter`. -/
  | notAnArray
  /-- A `TypeError`: `Api.assembleTransaction` is not a function. -/
  | notAFunction
  /-- Whatever a library or a rejected request throws. -/
  | rejected (message : String)

end InverseArena.Backend
