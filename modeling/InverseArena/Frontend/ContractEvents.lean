import InverseArena.Arena.Types
import Mathlib.Data.Rat.Cast.Order

/-!
# The arena's events in the user interface

`contract/arena/src/events.rs`, as host values, and
`components/hook-d/sorobanEventParser.ts`, which makes domain events of them. The XDR
codec and `scValToNative` belong to the SDK and are parameters: values survive the codec,
and tuples become arrays. The parser reads fields such as `value.round` of what is an array.

Results:
* `parseArenaEvent_rawEvent`: what the parser makes of each recognised event.
* `survives_iff`: kind, player, round, choice and winner survive for exactly the events
  `init`, `claimed` and `join`, the last one unless it counts no player.
-/

namespace InverseArena.Frontend

open Arena

/-! ## What the contract publishes -/

/-- An `ScVal`, as far as the events use them. -/
inductive ScVal where
  | void
  | u32 (n : ℕ)
  | u64 (n : ℕ)
  | i128 (z : ℤ)
  | symbol (s : String)
  | bytes (b : BytesN 32)
  | address (a : Address)
  | vec (elements : List ScVal)

/-- What `env.events().publish` is called with. -/
structure Published where
  topics : List ScVal
  value : ScVal

/-- `Choice`, a unit variant of a `#[contracttype]` enumeration. -/
def choiceVal : Choice → ScVal
  | .Heads => .vec [.symbol "Heads"]
  | .Tails => .vec [.symbol "Tails"]

/-- The functions of `ArenaEvents`. -/
def publish : ArenaEvent → Published
  | .initialized admin => ⟨[.symbol "init"], .address admin⟩
  | .playerJoined player playerCount => ⟨[.symbol "join", .address player], .u32 playerCount⟩
  | .playerBanned admin player => ⟨[.symbol "ban", .address admin], .address player⟩
  | .playerUnbanned admin player => ⟨[.symbol "unban", .address admin], .address player⟩
  | .playerLimitsConfigured minPlayers maxPlayers =>
    ⟨[.symbol "limits"], .vec [.u32 minPlayers, .u32 maxPlayers]⟩
  | .upgradeProposed newWasmHash proposedAt =>
    ⟨[.symbol "up_prop"], .vec [.bytes newWasmHash, .u64 proposedAt]⟩
  | .upgraded newWasmHash => ⟨[.symbol "upgrade"], .bytes newWasmHash⟩
  | .gameStarted round durationSeconds =>
    ⟨[.symbol "started"], .vec [.u32 round, .u64 durationSeconds]⟩
  | .roundResolved round eliminated survivors =>
    ⟨[.symbol "resolved"], .vec [.u32 round, .u32 eliminated, .u32 survivors]⟩
  | .roundTied round survivors => ⟨[.symbol "tied"], .vec [.u32 round, .u32 survivors]⟩
  | .playerEliminated player round => ⟨[.symbol "elim", .address player], .u32 round⟩
  | .gameFinished winner round => ⟨[.symbol "finished"], .vec [.address winner, .u32 round]⟩
  | .prizeClaimed winner amount yieldAmount =>
    ⟨[.symbol "claimed", .address winner], .vec [.i128 amount, .i128 yieldAmount]⟩
  | .adminChanged oldAdmin newAdmin =>
    ⟨[.symbol "admin"], .vec [.address oldAdmin, .address newAdmin]⟩
  | .paused caller reason => ⟨[.symbol "paused", .address caller], .symbol reason⟩
  | .unpaused caller => ⟨[.symbol "unpaused", .address caller], .void⟩
  | .arenaExpired => ⟨[.symbol "expired"], .void⟩
  | .vaultBalanceDecreased previousBalance currentBalance =>
    ⟨[.symbol "vaultdec"], .vec [.i128 previousBalance, .i128 currentBalance]⟩
  | .vaultOracleFailed oracle => ⟨[.symbol "vault_oracle_failed"], .address oracle⟩
  | .arenaCancelled admin => ⟨[.symbol "cancel", .address admin], .void⟩
  | .refundClaimed player => ⟨[.symbol "refund", .address player], .void⟩
  | .leaderboardUpdated => ⟨[.symbol "lboard"], .void⟩
  | .commitmentSubmitted player round => ⟨[.symbol "commit", .address player], .u32 round⟩
  | .choiceRevealed player choice round =>
    ⟨[.symbol "reveal", .address player], .vec [choiceVal choice, .u32 round]⟩

/-! ## JavaScript -/

/-- A number of JavaScript. -/
inductive JsNumber where
  | nan
  | infinity (negative : Bool)
  | finite (q : ℚ)
  deriving DecidableEq

/-- A value of JavaScript. -/
inductive JsValue where
  | undefined
  | null
  | boolean (b : Bool)
  | number (n : JsNumber)
  | bigint (z : ℤ)
  | string (s : String)
  | array (elements : List JsValue)
  | object (fields : List (String × JsValue))

namespace JsValue

/-- `!value`. -/
def isFalsy : JsValue → Bool
  | undefined | null => true
  | boolean b => !b
  | number n => n = .nan || n = .finite 0
  | bigint z => z = 0
  | string s => s = ""
  | array _ | object _ => false

/-- `value[name]`, for names that no prototype has; `none` where it throws. -/
def get (name : String) : JsValue → Option JsValue
  | undefined | null => none
  | object fields => some ((fields.lookup name).getD undefined)
  | _ => some undefined

/-- `value === text`. -/
def isText (text : String) : JsValue → Bool
  | string s => s = text
  | _ => false

end JsValue

/-- What the parser calls. -/
structure Runtime where
  /-- An `ScVal` in XDR, in base 64, as the RPC server answers it. -/
  toXDR : ScVal → String
  /-- `xdr.ScVal.fromXDR(text, 'base64')`; `none` where it throws. -/
  fromXDR : String → Option ScVal
  scValToNative : ScVal → JsValue
  /-- `Number(value)` for a value that is a text, or has one. -/
  numberOf : JsValue → JsNumber
  /-- `new Date(text).getTime()`. -/
  getTime : String → JsNumber
  /-- `Date.now()`. -/
  now : ℕ

/-- `Number(value)`. -/
def toNumber (rt : Runtime) : JsValue → JsNumber
  | .undefined => .nan
  | .null => .finite 0
  | .boolean b => .finite (if b then 1 else 0)
  | .number n => n
  | value => rt.numberOf value

/-! ## The parser -/

/-- `RawContractEvent`, as far as it is read. -/
structure RawContractEvent where
  contractId : String
  topic : List String
  valueXdr : String
  ledgerCloseAt : Option String

/-- `ArenaDomainEvent`; the fields hold whatever the parser has read. -/
inductive ArenaDomainEvent where
  | ArenaCreated (arenaId : String) (creator : JsValue) (maxPlayers : ℕ) (entryFee : String)
      (timestamp : JsNumber)
  | PlayerJoined (arenaId : String) (playerWallet : JsValue) (timestamp : JsNumber)
  | RoundStarted (arenaId : String) (roundNumber timestamp : JsNumber)
  | ChoiceSubmitted (arenaId : String) (playerWallet : JsValue) (choice : ℕ)
      (roundNumber timestamp : JsNumber)
  | RoundResolved (arenaId : String) (roundNumber : JsNumber) (winningChoice : ℕ)
      (timestamp : JsNumber)
  | WinnersDeclared (arenaId : String) (winners : List JsValue) (timestamp : JsNumber)

section Parser

variable (rt : Runtime) (raw : RawContractEvent)

/-- `decodeValue(xdrString)` and the test `!value` that follows it: an exception is
    caught, and both give up. -/
def decodeValue : Option JsValue := do
  let value := rt.scValToNative (← rt.fromXDR raw.valueXdr)
  if value.isFalsy then none else pure value

/-- `getTimestamp(raw)`. -/
def getTimestamp : JsNumber :=
  match raw.ledgerCloseAt with
  | some text => if text = "" then .finite rt.now else rt.getTime text
  | none => .finite rt.now

/-- `topic[1]` of an event with at least two topics. -/
def topicAddress : Option JsValue := do
  let playerScVal ← rt.fromXDR (← raw.topic[1]?)
  pure (rt.scValToNative playerScVal)

/-- `choice === 'Heads' ? 0 : 1`. -/
def choiceNumber (choice : JsValue) : ℕ := if choice.isText "Heads" then 0 else 1

def parseArenaCreatedEvent : Option ArenaDomainEvent := do
  let value ← decodeValue rt raw
  pure (.ArenaCreated raw.contractId value 0 "0" (getTimestamp rt raw))

def parsePlayerJoinedEvent : Option ArenaDomainEvent := do
  let player ← topicAddress rt raw
  let _ ← decodeValue rt raw
  pure (.PlayerJoined raw.contractId player (getTimestamp rt raw))

def parseRoundStartedEvent : Option ArenaDomainEvent := do
  let value ← decodeValue rt raw
  let round ← value.get "round"
  pure (.RoundStarted raw.contractId (toNumber rt round) (getTimestamp rt raw))

def parseChoiceSubmittedEvent : Option ArenaDomainEvent := do
  let value ← decodeValue rt raw
  let player ← value.get "player"
  let choice ← value.get "choice"
  let round ← value.get "round"
  pure (.ChoiceSubmitted raw.contractId player (choiceNumber choice) (toNumber rt round)
    (getTimestamp rt raw))

def parseRoundResolvedEvent : Option ArenaDomainEvent := do
  let value ← decodeValue rt raw
  let round ← value.get "round"
  let winner ← value.get "winner"
  pure (.RoundResolved raw.contractId (toNumber rt round) (choiceNumber winner)
    (getTimestamp rt raw))

def parseWinnersDeclaredEvent : Option ArenaDomainEvent := do
  let value ← decodeValue rt raw
  let winners ← value.get "winners"
  pure (.WinnersDeclared raw.contractId
    (match winners with
      | .array elements => elements
      | _ => [])
    (getTimestamp rt raw))

def parseChoiceRevealedEvent : Option ArenaDomainEvent := do
  let player ← topicAddress rt raw
  let value ← decodeValue rt raw
  let choice ← value.get "choice"
  let round ← value.get "round"
  pure (.ChoiceSubmitted raw.contractId player (choiceNumber choice) (toNumber rt round)
    (getTimestamp rt raw))

def parsePrizeClaimedEvent : Option ArenaDomainEvent := do
  let winner ← topicAddress rt raw
  let _ ← decodeValue rt raw
  pure (.WinnersDeclared raw.contractId [winner] (getTimestamp rt raw))

def parsePlayerEliminatedEvent : Option ArenaDomainEvent := do
  let player ← topicAddress rt raw
  let _ ← decodeValue rt raw
  pure (.PlayerJoined raw.contractId player (getTimestamp rt raw))

/-- The name of an event, from its first topic. -/
def eventName : Option JsValue := do
  let eventNameScVal ← rt.fromXDR (← raw.topic[0]?)
  pure (rt.scValToNative eventNameScVal)

/-- `parseArenaEvent(raw)`: an exception is caught and gives `null`, too. -/
def parseArenaEvent : Option ArenaDomainEvent := do
  match ← eventName rt raw with
  | .string "init" => parseArenaCreatedEvent rt raw
  | .string "join" => parsePlayerJoinedEvent rt raw
  | .string "started" => parseRoundStartedEvent rt raw
  | .string "commit" => parseChoiceSubmittedEvent rt raw
  | .string "reveal" => parseChoiceRevealedEvent rt raw
  | .string "resolved" => parseRoundResolvedEvent rt raw
  | .string "finished" => parseWinnersDeclaredEvent rt raw
  | .string "claimed" => parsePrizeClaimedEvent rt raw
  | .string "elim" => parsePlayerEliminatedEvent rt raw
  | _ => none

end Parser

/-! ## What survives -/

/-- `scValToNative` does what is documented of it, with addresses as `strkey` texts. -/
structure Native (rt : Runtime) (strkey : Address → String) : Prop where
  symbol : ∀ s, rt.scValToNative (.symbol s) = .string s
  u32 : ∀ n, rt.scValToNative (.u32 n) = .number (.finite n)
  address : ∀ a, rt.scValToNative (.address a) = .string (strkey a)
  vec : ∀ elements, rt.scValToNative (.vec elements) = .array (elements.map rt.scValToNative)
  strkey_ne : ∀ a, strkey a ≠ ""

/-- The codec gives back what an event is made of. -/
def RoundTrips (rt : Runtime) (e : ArenaEvent) : Prop :=
  ∀ v ∈ (publish e).value :: (publish e).topics, rt.fromXDR (rt.toXDR v) = some v

/-- The event of the contract `contractId`, as the RPC server answers it. -/
def rawEvent (rt : Runtime) (contractId : String) (ledgerCloseAt : Option String)
    (e : ArenaEvent) : RawContractEvent :=
  ⟨contractId, (publish e).topics.map rt.toXDR, rt.toXDR (publish e).value, ledgerCloseAt⟩

/-- The kind of the event, and its player, round, choice and winner, as far as it has
    them. -/
def Matches (strkey : Address → String) : ArenaEvent → ArenaDomainEvent → Prop
  | .initialized admin, .ArenaCreated _ creator _ _ _ => creator = .string (strkey admin)
  | .playerJoined player _, .PlayerJoined _ playerWallet _ =>
    playerWallet = .string (strkey player)
  | .gameStarted round _, .RoundStarted _ roundNumber _ => roundNumber = .finite round
  | .commitmentSubmitted player round, .ChoiceSubmitted _ playerWallet _ roundNumber _ =>
    playerWallet = .string (strkey player) ∧ roundNumber = .finite round
  | .choiceRevealed player choice round, .ChoiceSubmitted _ playerWallet choice' roundNumber _ =>
    playerWallet = .string (strkey player) ∧ choice' = choice.toByte.toNat ∧
      roundNumber = .finite round
  | .roundResolved round _ _, .RoundResolved _ roundNumber _ _ => roundNumber = .finite round
  | .gameFinished winner _, .WinnersDeclared _ winners _ => winners = [.string (strkey winner)]
  | .prizeClaimed winner _ _, .WinnersDeclared _ winners _ =>
    winners = [.string (strkey winner)]
  | _, _ => False

/-- The parser makes a matching domain event of it. -/
def Survives (rt : Runtime) (strkey : Address → String) (contractId : String)
    (ledgerCloseAt : Option String) (e : ArenaEvent) : Prop :=
  ∃ d, parseArenaEvent rt (rawEvent rt contractId ledgerCloseAt e) = some d ∧
    Matches strkey e d

/-- `init`, `claimed`, and `join` with a player count that is not zero. -/
def IsReadWell : ArenaEvent → Prop
  | .initialized _ | .prizeClaimed _ _ _ => True
  | .playerJoined _ playerCount => playerCount ≠ 0
  | _ => False

/-- What the parser makes of an event: nothing of a zero, and nothing of the fields that
    arrays and numbers do not have. -/
def readBack (strkey : Address → String) (contractId : String) (timestamp : JsNumber) :
    ArenaEvent → Option ArenaDomainEvent
  | .initialized admin =>
    some (.ArenaCreated contractId (.string (strkey admin)) 0 "0" timestamp)
  | .playerJoined player playerCount =>
    if playerCount = 0 then none
    else some (.PlayerJoined contractId (.string (strkey player)) timestamp)
  | .gameStarted _ _ => some (.RoundStarted contractId .nan timestamp)
  | .commitmentSubmitted _ round =>
    if round = 0 then none else some (.ChoiceSubmitted contractId .undefined 1 .nan timestamp)
  | .choiceRevealed player _ _ =>
    some (.ChoiceSubmitted contractId (.string (strkey player)) 1 .nan timestamp)
  | .roundResolved _ _ _ => some (.RoundResolved contractId .nan 1 timestamp)
  | .gameFinished _ _ => some (.WinnersDeclared contractId [] timestamp)
  | .prizeClaimed winner _ _ =>
    some (.WinnersDeclared contractId [.string (strkey winner)] timestamp)
  | .playerEliminated player round =>
    if round = 0 then none
    else some (.PlayerJoined contractId (.string (strkey player)) timestamp)
  | _ => none

/-- The first topic. -/
def topicName (e : ArenaEvent) : String :=
  match (publish e).topics with
  | .symbol s :: _ => s
  | _ => ""

/-- The topics that `parseArenaEvent` recognises. -/
def recognisedTopics : List String :=
  ["init", "join", "started", "commit", "reveal", "resolved", "finished", "claimed", "elim"]

section Read

variable {rt : Runtime} {strkey : Address → String} {contractId : String}
  {ledgerCloseAt : Option String} {e : ArenaEvent}

theorem eventName_rawEvent (hn : Native rt strkey) (hc : RoundTrips rt e) {s : String}
    {rest : List ScVal} (h : (publish e).topics = .symbol s :: rest) :
    eventName rt (rawEvent rt contractId ledgerCloseAt e) = some (.string s) := by
  have hname : rt.fromXDR (rt.toXDR (.symbol s)) = some (.symbol s) :=
    hc _ (List.mem_cons_of_mem _ (h ▸ List.mem_cons_self))
  simp [eventName, rawEvent, h, hname, hn.symbol]

/-- The name under which an event is published. -/
theorem eventName_publish (hn : Native rt strkey) (hc : RoundTrips rt e) :
    eventName rt (rawEvent rt contractId ledgerCloseAt e) = some (.string (topicName e)) := by
  cases e <;> exact eventName_rawEvent hn hc rfl

theorem topicAddress_rawEvent (hn : Native rt strkey) (hc : RoundTrips rt e) {s : String}
    {a : Address} (h : (publish e).topics = [.symbol s, .address a]) :
    topicAddress rt (rawEvent rt contractId ledgerCloseAt e) = some (.string (strkey a)) := by
  have htopic : rt.fromXDR (rt.toXDR (.address a)) = some (.address a) :=
    hc _ (List.mem_cons_of_mem _ (h ▸ List.mem_cons_of_mem _ List.mem_cons_self))
  simp [topicAddress, rawEvent, h, htopic, hn.address]

theorem decodeValue_rawEvent (hc : RoundTrips rt e) :
    decodeValue rt (rawEvent rt contractId ledgerCloseAt e) =
      if (rt.scValToNative (publish e).value).isFalsy then none
      else some (rt.scValToNative (publish e).value) := by
  have hvalue := hc _ List.mem_cons_self
  simp [decodeValue, rawEvent, hvalue]

/-- A published value that is an array. -/
theorem decodeValue_vec (hn : Native rt strkey) (hc : RoundTrips rt e) {elements : List ScVal}
    (h : (publish e).value = .vec elements) :
    decodeValue rt (rawEvent rt contractId ledgerCloseAt e) =
      some (.array (elements.map rt.scValToNative)) := by
  rw [decodeValue_rawEvent hc, h, hn.vec]
  rfl

/-- A published value that is a number. -/
theorem decodeValue_u32 (hn : Native rt strkey) (hc : RoundTrips rt e) {n : ℕ}
    (h : (publish e).value = .u32 n) :
    decodeValue rt (rawEvent rt contractId ledgerCloseAt e) =
      if n = 0 then none else some (.number (.finite n)) := by
  rw [decodeValue_rawEvent hc, h, hn.u32]
  simp [JsValue.isFalsy]

theorem parseArenaEvent_rawEvent (hn : Native rt strkey) (hc : RoundTrips rt e) :
    parseArenaEvent rt (rawEvent rt contractId ledgerCloseAt e) = readBack strkey contractId
      (getTimestamp rt (rawEvent rt contractId ledgerCloseAt e)) e := by
  unfold parseArenaEvent
  rw [eventName_publish hn hc]
  cases e with
  | initialized admin =>
    have hvalue : decodeValue rt (rawEvent rt contractId ledgerCloseAt (.initialized admin)) =
        some (.string (strkey admin)) := by
      rw [decodeValue_rawEvent hc]
      simp [publish, hn.address, JsValue.isFalsy, hn.strkey_ne]
    show parseArenaCreatedEvent rt _ = _
    simp only [parseArenaCreatedEvent, hvalue]
    rfl
  | playerJoined player playerCount =>
    show parsePlayerJoinedEvent rt _ = _
    simp only [parsePlayerJoinedEvent, topicAddress_rawEvent hn hc rfl, decodeValue_u32 hn hc rfl]
    by_cases hzero : playerCount = 0
    · simp [readBack, hzero]
    · simp [readBack, hzero, rawEvent]
  | gameStarted =>
    show parseRoundStartedEvent rt _ = _
    simp only [parseRoundStartedEvent, decodeValue_vec hn hc rfl]
    rfl
  | commitmentSubmitted player round =>
    show parseChoiceSubmittedEvent rt _ = _
    simp only [parseChoiceSubmittedEvent, decodeValue_u32 hn hc rfl]
    by_cases hzero : round = 0
    · simp [readBack, hzero]
    · simp [readBack, hzero, rawEvent, JsValue.get, toNumber, choiceNumber, JsValue.isText]
  | choiceRevealed =>
    show parseChoiceRevealedEvent rt _ = _
    simp only [parseChoiceRevealedEvent, topicAddress_rawEvent hn hc rfl, decodeValue_vec hn hc rfl]
    rfl
  | roundResolved =>
    show parseRoundResolvedEvent rt _ = _
    simp only [parseRoundResolvedEvent, decodeValue_vec hn hc rfl]
    rfl
  | gameFinished =>
    show parseWinnersDeclaredEvent rt _ = _
    simp only [parseWinnersDeclaredEvent, decodeValue_vec hn hc rfl]
    rfl
  | prizeClaimed =>
    show parsePrizeClaimedEvent rt _ = _
    simp only [parsePrizeClaimedEvent, topicAddress_rawEvent hn hc rfl, decodeValue_vec hn hc rfl]
    rfl
  | playerEliminated player round =>
    show parsePlayerEliminatedEvent rt _ = _
    simp only [parsePlayerEliminatedEvent, topicAddress_rawEvent hn hc rfl,
      decodeValue_u32 hn hc rfl]
    by_cases hzero : round = 0
    · simp [readBack, hzero]
    · simp [readBack, hzero, rawEvent]
  | _ => rfl

/-- For every event that the contract publishes: the parser makes a domain event of the
    same kind, with its player, round, choice and winner, exactly of `init`, of `claimed`,
    and of `join` with a player count that is not zero. -/
theorem survives_iff (hn : Native rt strkey) (hc : RoundTrips rt e) :
    Survives rt strkey contractId ledgerCloseAt e ↔ IsReadWell e := by
  unfold Survives
  rw [parseArenaEvent_rawEvent hn hc]
  cases e with
  | initialized => exact iff_of_true ⟨_, rfl, rfl⟩ trivial
  | prizeClaimed => exact iff_of_true ⟨_, rfl, rfl⟩ trivial
  | playerJoined player playerCount =>
    show (∃ d, (if playerCount = 0 then none else _) = some d ∧ _) ↔ playerCount ≠ 0
    by_cases hzero : playerCount = 0
    · rw [if_pos hzero]
      exact iff_of_false (fun ⟨_, heq, _⟩ => by cases heq) (not_not_intro hzero)
    · rw [if_neg hzero]
      exact iff_of_true ⟨_, rfl, rfl⟩ hzero
  | commitmentSubmitted player round =>
    refine iff_of_false (fun ⟨d, heq, hmatch⟩ => ?_) id
    dsimp only [readBack] at heq
    split_ifs at heq
    cases heq
    cases hmatch.2
  | choiceRevealed =>
    refine iff_of_false (fun ⟨d, heq, hmatch⟩ => ?_) id
    cases heq
    cases hmatch.2.2
  | gameStarted | roundResolved | gameFinished =>
    refine iff_of_false (fun ⟨d, heq, hmatch⟩ => ?_) id
    cases heq
    cases hmatch
  | playerEliminated player round =>
    refine iff_of_false (fun ⟨d, heq, hmatch⟩ => ?_) id
    dsimp only [readBack] at heq
    split_ifs at heq
    cases heq
    cases hmatch
  | _ => exact iff_of_false (fun ⟨_, heq, _⟩ => by cases heq) id

end Read

/-! ## A sample runtime -/

/-- The account of the all-zero key. -/
def sampleStrkey (_ : Address) : String :=
  "GAAAAAAAAAAAAAAAAAAAAAAAAAAAAAAAAAAAAAAAAAAAAAAAAAAAAWHF"

def sampleNative : ScVal → JsValue
  | .void => .null
  | .u32 n => .number (.finite n)
  | .u64 n => .bigint n
  | .i128 z => .bigint z
  | .symbol s => .string s
  | .bytes _ => .object []
  | .address a => .string (sampleStrkey a)
  | .vec elements => .array (elements.map sampleNative)

/-- The XDR of the values used below: of an account, of the symbols `join` and `started`,
    of 1 and of the pair of 1 and 60. -/
def sampleXDR : ScVal → String
  | .address _ => "AAAAEgAAAAAAAAAAAAAAAAAAAAAAAAAAAAAAAAAAAAAAAAAAAAAAAAAAAAA="
  | .symbol "join" => "AAAADwAAAARqb2lu"
  | .symbol "started" => "AAAADwAAAAdzdGFydGVkAA=="
  | .u32 1 => "AAAAAwAAAAE="
  | .vec [.u32 1, .u64 60] => "AAAAEAAAAAEAAAACAAAAAwAAAAEAAAAFAAAAAAAAADw="
  | _ => ""

def sampleRuntime : Runtime where
  toXDR := sampleXDR
  fromXDR text :=
    if text = "AAAAEgAAAAAAAAAAAAAAAAAAAAAAAAAAAAAAAAAAAAAAAAAAAAAAAAAAAAA=" then
      some (.address ⟨11⟩)
    else if text = "AAAADwAAAARqb2lu" then some (.symbol "join")
    else if text = "AAAADwAAAAdzdGFydGVkAA==" then some (.symbol "started")
    else if text = "AAAAAwAAAAE=" then some (.u32 1)
    else if text = "AAAAEAAAAAEAAAACAAAAAwAAAAEAAAAFAAAAAAAAADw=" then
      some (.vec [.u32 1, .u64 60])
    else none
  scValToNative := sampleNative
  numberOf _ := .nan
  getTime _ := .nan
  now := 0

theorem native_sampleRuntime : Native sampleRuntime sampleStrkey where
  symbol _ := by simp [sampleRuntime, sampleNative]
  u32 _ := by simp [sampleRuntime, sampleNative]
  address _ := by simp [sampleRuntime, sampleNative]
  vec elements := by
    show sampleNative (.vec elements) = .array (elements.map sampleNative)
    rw [sampleNative]
  strkey_ne _ := by simp [sampleStrkey]

/-- The first player joins. -/
theorem survives_iff_sample :
    Survives sampleRuntime sampleStrkey "CA" none (.playerJoined ⟨11⟩ 1) ↔
      IsReadWell (.playerJoined ⟨11⟩ 1) := by
  refine survives_iff native_sampleRuntime ?_
  simp [RoundTrips, publish, sampleRuntime, sampleXDR]

/-- The first round starts: the parser finds no number of it. -/
theorem not_survives : ¬ ∀ rt strkey e, Native rt strkey → RoundTrips rt e →
    topicName e ∈ recognisedTopics → Survives rt strkey "CA" none e := by
  intro hall
  have hc : RoundTrips sampleRuntime (.gameStarted 1 60) := by
    simp [RoundTrips, publish, sampleRuntime, sampleXDR]
  obtain ⟨d, hparse, hmatch⟩ := hall sampleRuntime sampleStrkey (.gameStarted 1 60)
    native_sampleRuntime hc (by decide)
  rw [parseArenaEvent_rawEvent native_sampleRuntime hc] at hparse
  cases hparse
  cases hmatch

end InverseArena.Frontend
