import InverseArena.Arena.Contract
import InverseArena.Backend.JsString
import InverseArena.Frontend.ContractEvents
import InverseArena.Library.Base64

/-!
# Commitments kept on a device

`shared-d/utils/commit-reveal.ts`, and the builders of `stellar-transactions.ts` (lines
278-372) that use it: the choice and the salt of a commitment are kept in `localStorage`,
under the arena and the round, until they are revealed. What is kept as JSON is modelled
by the record that it is the text of.

Results:
* `loadCommitment_save`: what is saved is loaded again.
* `storageKey_inj`: different arenas and rounds have different keys.
-/

namespace InverseArena.Frontend

open Arena Backend

/-! ## `commit-reveal.ts` -/

/-- `RoundChoice`, as text. -/
def choiceText : Choice → String
  | .Heads => "Heads"
  | .Tails => "Tails"

/-- `choiceToByte(choice)`. -/
def choiceToByte : Choice → UInt8
  | .Heads => 0
  | .Tails => 1

def STORAGE_PREFIX : String := "inversearena:commit-reveal"

/-- `storageKey(arenaId, round)`. -/
def storageKey (arenaId : String) (round : ℕ) : String :=
  STORAGE_PREFIX ++ ":" ++ arenaId ++ ":" ++ toString round

/-- `computeCommitment(choice, salt)`, with the `digest` of WebCrypto. -/
def computeCommitment (digest : List UInt8 → BytesN 32) (choice : Choice) (salt : BytesN 32) :
    BytesN 32 :=
  digest (choiceToByte choice :: salt.toList)

/-- `StoredCommitment`. -/
structure StoredCommitment where
  choice : Choice
  salt : BytesN 32
  deriving DecidableEq, Repr

/-- `StoredCommitmentJson`. -/
structure StoredCommitmentJson where
  choice : String
  salt : String
  deriving DecidableEq, Repr

/-- What `saveCommitment` makes of a commitment. -/
def StoredCommitment.json (c : StoredCommitment) : StoredCommitmentJson :=
  ⟨choiceText c.choice, String.ofList (Base64.encode c.salt.toList)⟩

/-- `salt.length !== 32`. -/
def saltOfBytes (bytes : List UInt8) : Option (BytesN 32) :=
  if h : bytes.length = 32 then some ⟨bytes.toArray, h⟩ else none

/-- What `loadCommitment` makes of the text that it finds. -/
def StoredCommitmentJson.commitment (json : StoredCommitmentJson) : Option StoredCommitment :=
  let salt := (Base64.decode json.salt.toList).bind saltOfBytes
  if json.choice = "Heads" then salt.map (⟨.Heads, ·⟩)
  else if json.choice = "Tails" then salt.map (⟨.Tails, ·⟩)
  else none

/-- The commitments in `localStorage`. -/
abbrev LocalStorage := String → Option StoredCommitmentJson

/-- `saveCommitment(arenaId, round, commitment)`. -/
def saveCommitment (arenaId : String) (round : ℕ) (commitment : StoredCommitment)
    (s : LocalStorage) : LocalStorage :=
  Function.update s (storageKey arenaId round) (some commitment.json)

/-- What is loaded from a key. -/
def loadCommitmentAt (key : String) (s : LocalStorage) : Option StoredCommitment :=
  (s key).bind (·.commitment)

/-- `loadCommitment(arenaId, round)`. -/
def loadCommitment (arenaId : String) (round : ℕ) (s : LocalStorage) : Option StoredCommitment :=
  loadCommitmentAt (storageKey arenaId round) s

/-- `clearCommitment(arenaId, round)`. -/
def clearCommitment (arenaId : String) (round : ℕ) (s : LocalStorage) : LocalStorage :=
  Function.update s (storageKey arenaId round) none

theorem saltOfBytes_toList (salt : BytesN 32) : saltOfBytes salt.toList = some salt := by
  have hlength : salt.toList.length = 32 := Vector.length_toList
  unfold saltOfBytes
  rw [dif_pos hlength]
  rfl

@[simp] theorem commitment_json (c : StoredCommitment) : c.json.commitment = some c := by
  have hsalt : (Base64.decode (String.ofList (Base64.encode c.salt.toList)).toList).bind
      saltOfBytes = some c.salt := by
    rw [String.toList_ofList, Base64.decode_encode]
    exact saltOfBytes_toList c.salt
  obtain ⟨choice, salt⟩ := c
  unfold StoredCommitmentJson.commitment StoredCommitment.json
  dsimp only at hsalt ⊢
  rw [hsalt]
  cases choice <;> rfl

theorem loadCommitment_save (arenaId : String) (round : ℕ) (c : StoredCommitment)
    (s : LocalStorage) : loadCommitment arenaId round (saveCommitment arenaId round c s) =
      some c := by
  unfold loadCommitment loadCommitmentAt saveCommitment
  rw [Function.update_self]
  exact commitment_json c

theorem loadCommitmentAt_save_of_ne {key arenaId : String} {round : ℕ} {c : StoredCommitment}
    {s : LocalStorage} (h : key ≠ storageKey arenaId round) :
    loadCommitmentAt key (saveCommitment arenaId round c s) = loadCommitmentAt key s := by
  unfold loadCommitmentAt saveCommitment
  rw [Function.update_of_ne h]

theorem loadCommitment_clear {arenaId : String} {round : ℕ} {s : LocalStorage} :
    loadCommitment arenaId round (clearCommitment arenaId round s) = none := by
  unfold loadCommitment loadCommitmentAt clearCommitment
  rw [Function.update_self]
  rfl

theorem loadCommitmentAt_clear_of_ne {key arenaId : String} {round : ℕ} {s : LocalStorage}
    (h : key ≠ storageKey arenaId round) :
    loadCommitmentAt key (clearCommitment arenaId round s) = loadCommitmentAt key s := by
  unfold loadCommitmentAt clearCommitment
  rw [Function.update_of_ne h]

/-- A text is split in one way at its last `c`. -/
theorem append_cons_inj {c : Char} {l l' m m' : List Char} (hm : c ∉ m) (hm' : c ∉ m')
    (h : l ++ c :: m = l' ++ c :: m') : l = l' ∧ m = m' := by
  rcases List.append_eq_append_iff.mp h with ⟨t, rfl, ht⟩ | ⟨t, rfl, ht⟩
  · cases t with
    | nil => exact ⟨(List.append_nil _).symm, (List.cons.inj ht).2⟩
    | cons d t =>
      refine absurd ?_ hm
      rw [(List.cons.inj ht).2]
      exact List.mem_append_right _ List.mem_cons_self
  · cases t with
    | nil => exact ⟨List.append_nil _, (List.cons.inj ht).2.symm⟩
    | cons d t =>
      refine absurd ?_ hm'
      rw [(List.cons.inj ht).2]
      exact List.mem_append_right _ List.mem_cons_self

theorem toList_toString (n : ℕ) : (toString n).toList = Nat.toDigits 10 n := by
  rw [Nat.toString_eq_repr, Nat.toList_repr]

/-- The last colon of a key separates the round. -/
theorem storageKey_inj {arenaId arenaId' : String} {round round' : ℕ}
    (h : storageKey arenaId round = storageKey arenaId' round') :
    arenaId = arenaId' ∧ round = round' := by
  have hcolon : ∀ n, ':' ∉ Nat.toDigits 10 n := fun n hmem =>
    absurd (Nat.isDigit_of_mem_toDigits (by omega) (by omega) hmem) (by decide)
  have hlists := congrArg String.toList h
  unfold storageKey at hlists
  simp only [String.toList_append, List.append_assoc, toList_toString] at hlists
  have hrest := List.append_cancel_left (List.append_cancel_left hlists)
  obtain ⟨harena, hround⟩ := append_cons_inj (hcolon round) (hcolon round') hrest
  refine ⟨String.toList_inj.mp harena, ?_⟩
  have hdigits := congrArg (Nat.ofDigitChars 10 · 0) hround
  simpa only [Nat.ofDigitChars_ten_toDigits] using hdigits

/-! ## The builders of transactions -/

/-- `StellarPublicKeySchema.parse(publicKey)`; `none` where it throws. -/
def parsePublicKey (publicKey : String) : Option String :=
  let cs := trim publicKey.toList
  if isPublicKey cs then some (String.ofList cs) else none

/-- `/^C\.{3}[A-Z0-9_-]+$/`. -/
def isShortId : List Char → Bool
  | 'C' :: '.' :: '.' :: '.' :: cs => cs ≠ [] && cs.all fun c =>
    ('A' ≤ c && c ≤ 'Z') || isDigit c || c = '_' || c = '-'
  | _ => false

/-- `StellarContractIdSchema.parse(poolId)`. -/
def parseContractId (poolId : String) : Option String :=
  let id := String.ofList (trim poolId.toList)
  if isContractId id || isShortId id.toList then some id else none

/-- `RoundNumberSchema.parse(roundNumber)`. -/
def parseRoundNumber (roundNumber : ℕ) : Option ℕ :=
  if 1 ≤ roundNumber ∧ roundNumber ≤ 10000 then some roundNumber else none

/-- `contract.call(method, ...args)`. -/
structure Operation where
  contract : String
  method : String
  args : List ScVal

/-- A transaction, with the arguments that the page keeps of the call that built it. -/
structure DeviceTransaction where
  source : String
  operation : Operation
  poolId : String
  roundNumber : ℕ

/-- `encodeChoice(choice)`. -/
def encodeChoice (choice : Choice) : ScVal := .symbol (choiceText choice)

section Builders

variable (digest : List UInt8 → BytesN 32) (account : String → Address)

/-- `buildSubmitCommitmentOperation(poolContract, playerPublicKey, commitment)`. -/
def buildSubmitCommitmentOperation (poolContract playerPublicKey : String)
    (commitment : BytesN 32) : Operation :=
  ⟨poolContract, "submit_commitment", [.address (account playerPublicKey), .bytes commitment]⟩

/-- `buildRevealChoiceOperation(poolContract, playerPublicKey, choice, salt)`. -/
def buildRevealChoiceOperation (poolContract playerPublicKey : String) (choice : Choice)
    (salt : BytesN 32) : Operation :=
  ⟨poolContract, "reveal_choice",
    [.address (account playerPublicKey), encodeChoice choice, .bytes salt]⟩

/-- The arguments of a builder, validated. -/
def parseArguments (publicKey poolId : String) (roundNumber : ℕ) :
    Option (String × String × ℕ) := do
  let validatedPublicKey ← parsePublicKey publicKey
  let validatedPoolId ← parseContractId poolId
  let validatedRoundNumber ← parseRoundNumber roundNumber
  pure (validatedPublicKey, validatedPoolId, validatedRoundNumber)

/-- `buildSubmitCommitmentTransaction(publicKey, poolId, choice, roundNumber)`, where
    `generateSalt()` is `salt`; unless `composed`, what follows the saving throws. -/
def buildSubmitCommitmentTransaction (publicKey poolId : String) (choice : Choice)
    (roundNumber : ℕ) (salt : BytesN 32) (composed : Bool) (s : LocalStorage) :
    Option DeviceTransaction × LocalStorage :=
  match parseArguments publicKey poolId roundNumber with
  | none => (none, s)
  | some (validatedPublicKey, validatedPoolId, validatedRoundNumber) =>
    let commitment := computeCommitment digest choice salt
    let s := saveCommitment validatedPoolId validatedRoundNumber ⟨choice, salt⟩ s
    let operation :=
      buildSubmitCommitmentOperation account validatedPoolId validatedPublicKey commitment
    (if composed then some ⟨validatedPublicKey, operation, poolId, roundNumber⟩ else none, s)

/-- `buildRevealChoiceTransaction(publicKey, poolId, roundNumber)`. -/
def buildRevealChoiceTransaction (publicKey poolId : String) (roundNumber : ℕ)
    (composed : Bool) (s : LocalStorage) : Option DeviceTransaction := do
  let (validatedPublicKey, validatedPoolId, validatedRoundNumber) ←
    parseArguments publicKey poolId roundNumber
  let stored ← loadCommitment validatedPoolId validatedRoundNumber s
  let operation :=
    buildRevealChoiceOperation account validatedPoolId validatedPublicKey stored.choice stored.salt
  if composed then some ⟨validatedPublicKey, operation, poolId, roundNumber⟩ else none

variable {digest account} {publicKey poolId key pool : String} {roundNumber round : ℕ}
variable {choice : Choice} {salt : BytesN 32} {composed : Bool} {s : LocalStorage}

theorem buildSubmitCommitmentTransaction_of_none
    (h : parseArguments publicKey poolId roundNumber = none) :
    buildSubmitCommitmentTransaction digest account publicKey poolId choice roundNumber salt
      composed s = (none, s) := by
  unfold buildSubmitCommitmentTransaction
  rw [h]

/-- The record is written whether or not a transaction comes of it. -/
theorem buildSubmitCommitmentTransaction_of_some
    (h : parseArguments publicKey poolId roundNumber = some (key, pool, round)) :
    buildSubmitCommitmentTransaction digest account publicKey poolId choice roundNumber salt
        composed s =
      (if composed then some ⟨key, buildSubmitCommitmentOperation account pool key
          (computeCommitment digest choice salt), poolId, roundNumber⟩ else none,
        saveCommitment pool round ⟨choice, salt⟩ s) := by
  unfold buildSubmitCommitmentTransaction
  rw [h]

end Builders

end InverseArena.Frontend
