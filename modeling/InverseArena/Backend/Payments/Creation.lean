import InverseArena.Backend.JsString
import InverseArena.Backend.Payments.Stellar
import InverseArena.Library.Async

/-!
# The creation of payouts

`createPayoutTransaction` of `backend/src/services/paymentService.ts`, with the schema
of its input, as a program that awaits the repository and the RPC server. The expiry
that the built transaction gets is left out.
-/

namespace InverseArena.Backend.Payments

open Async

/-! ## Data -/

/-- The fields of a `TransactionRecord` that say what is paid: they are set when the
    record is created. -/
structure Payout where
  payoutId : String
  idempotencyKey : String
  sourceAccount : String
  destinationAccount : String
  asset : String
  amountStroops : String
  nonce : ℕ
  unsignedXdr : String
  deriving DecidableEq, Repr

/-- A whole `TransactionRecord`. -/
structure PayoutRecord extends TransactionRecord where
  payout : Payout

/-- A field of an input of type `unknown`: its text, if it is a string. -/
abbrev InputField := Option String

/-- The input of `createPayoutTransaction`. -/
structure PayoutInput where
  payoutId : InputField
  destinationAccount : InputField
  amount : InputField
  asset : InputField
  idempotencyKey : InputField
  deriving DecidableEq, Repr

/-- `CreatePayoutRequest`. -/
structure CreatePayoutRequest where
  payoutId : String
  destinationAccount : String
  amount : String
  asset : String
  idempotencyKey : String
  deriving DecidableEq, Repr

/-- An issue of a `ZodError`: the field, and the message if the schema gives one. -/
structure Issue where
  path : String
  message : Option String
  deriving DecidableEq, Repr

/-! ## The schema -/

/-- `[a-zA-Z0-9:_-]`. -/
def isKeyChar (c : Char) : Bool :=
  ('a' ≤ c && c ≤ 'z') || ('A' ≤ c && c ≤ 'Z') || isDigit c || c ∈ [':', '_', '-']

/-- `IDEMPOTENCY_REGEX`: `/^[a-zA-Z0-9:_-]{8,128}$/`. -/
def isIdempotencyKey (cs : List Char) : Bool :=
  8 ≤ cs.length && cs.length ≤ 128 && cs.all isKeyChar

/-- `AMOUNT_REGEX`: `/^\d+(\.\d{0,7})?$/`. -/
def isAmount (cs : List Char) : Bool :=
  let whole := cs.takeWhile isDigit
  whole ≠ [] && match cs.dropWhile isDigit with
    | [] => true
    | '.' :: fraction => fraction.length ≤ 7 && fraction.all isDigit
    | _ => false

/-- A trimmed string that passes a test, or an issue. -/
def stringField (path : String) (message : Option String) (test : List Char → Bool) :
    InputField → Except Issue String
  | none => .error ⟨path, none⟩
  | some s => if test (trim s.toList) then .ok (String.ofList (trim s.toList))
    else .error ⟨path, message⟩

/-- `CreatePayoutRequestSchema`, field by field. -/
def payoutIdField (input : PayoutInput) : Except Issue String :=
  stringField "payoutId" none (fun cs => 1 ≤ jsLength cs && jsLength cs ≤ 128) input.payoutId

def destinationAccountField (input : PayoutInput) : Except Issue String :=
  stringField "destinationAccount" (some "Invalid Stellar destination account") isPublicKey
    input.destinationAccount

def amountField (input : PayoutInput) : Except Issue String :=
  stringField "amount" (some "Amount must be a decimal with up to 7 digits") isAmount input.amount

def assetField (input : PayoutInput) : Except Issue String :=
  match input.asset with
  | some asset => if asset ∈ ["XLM", "USDC"] then .ok asset else .error ⟨"asset", none⟩
  | none => .error ⟨"asset", none⟩

def idempotencyKeyField (input : PayoutInput) : Except Issue String :=
  stringField "idempotencyKey" (some "Invalid idempotency key format") isIdempotencyKey
    input.idempotencyKey

/-- The issue of a field that is refused. -/
def issueOf (field : Except Issue String) : List Issue :=
  match field with
  | .ok _ => []
  | .error issue => [issue]

/-- `CreatePayoutRequestSchema.parse(input)`, or the issues of the `ZodError`. -/
def parseCreatePayoutRequest (input : PayoutInput) : Except (List Issue) CreatePayoutRequest :=
  match payoutIdField input, destinationAccountField input, amountField input, assetField input,
      idempotencyKeyField input with
  | .ok payoutId, .ok destinationAccount, .ok amount, .ok asset, .ok idempotencyKey =>
    .ok ⟨payoutId, destinationAccount, amount, asset, idempotencyKey⟩
  | payoutId, destinationAccount, amount, asset, idempotencyKey =>
    .error (issueOf payoutId ++ issueOf destinationAccount ++ issueOf amount ++ issueOf asset ++
      issueOf idempotencyKey)

/-! ## Amounts -/

/-- `new Error(message)`. -/
def newError (message : String) : PaymentError := .rejected (some message)

/-- `s.replace(/^0+(?=\d)/, "")`. -/
def stripZeros : List Char → List Char
  | '0' :: c :: cs => if isDigit c then stripZeros (c :: cs) else '0' :: c :: cs
  | cs => cs

/-- The digits that `toStroops` combines (lines 50-52). -/
def combinedDigits (amount : String) : List Char :=
  let parts := amount.toList.splitOn '.'
  let wholePart := parts.headD []
  let fractionPart := parts.tail.headD []
  let padded := (fractionPart ++ "0000000".toList).take 7
  stripZeros (wholePart ++ padded)

/-- `toStroops(amount)`. -/
def toStroops (amount : String) : Except PaymentError String :=
  let combined := combinedDigits amount
  if ¬ (combined ≠ [] ∧ combined.all isDigit) then
    .error (newError "Amount contains invalid digits")
  else if decimal combined = 0 then .error (newError "Amount must be greater than zero")
  else .ok (String.ofList combined)

/-- `BigInt(s)`. -/
def toBigInt (s : String) : Except PaymentError ℤ :=
  match bigInt s with
  | some z => .ok z
  | none => .error (newError ("Cannot convert " ++ s ++ " to a BigInt"))

/-! ## Requests -/

/-- What a prepared transaction is read for: `Number(fee)`, if it is finite, and
    `toXDR()`. -/
structure PreparedTransaction where
  fee : Option ℤ
  xdr : String
  deriving DecidableEq, Repr

/-- What `queueSignedTransaction` sets. -/
structure SignedPatch where
  signedXdr : String
  updatedAt : ℕ

/-- What the creation and the signing of payouts await. -/
inductive PayoutRequest where
  /-- `new Date()`. -/
  | now
  /-- `generateRecordId()`. -/
  | generateRecordId
  /-- `transactions.findByIdempotencyKey(idempotencyKey)`. -/
  | findByIdempotencyKey (idempotencyKey : String)
  /-- `transactions.findById(id)`. -/
  | findById (id : String)
  /-- `transactions.reserveNextNonce(sourceAccount)`. -/
  | reserveNextNonce (sourceAccount : String)
  /-- `transactions.insert(record)`. -/
  | insert (record : PayoutRecord)
  /-- `transactions.update(id, patch)`. -/
  | update (id : String) (patch : SignedPatch)
  /-- `breaker.fire(() => rpcServer.getAccount(sourceAccount))`. -/
  | getAccount (sourceAccount : String)
  /-- `breaker.fire(() => rpcServer.prepareTransaction(built))`. -/
  | prepareTransaction (built : Transaction)

/-- What a fulfilled request yields; of an account its id. -/
abbrev PayoutAnswer : PayoutRequest → Type
  | .now => ℕ
  | .generateRecordId => String
  | .findByIdempotencyKey _ => Option PayoutRecord
  | .findById _ => Option PayoutRecord
  | .reserveNextNonce _ => ℕ
  | .insert _ => Unit
  | .update _ _ => Option PayoutRecord
  | .getAccount _ => String
  | .prepareTransaction _ => PreparedTransaction

/-- A program of the service. -/
abbrev PayoutProgram := Async PayoutAnswer PaymentError

/-- Awaits the answer to `q`. -/
def fetch (q : PayoutRequest) : PayoutProgram (PayoutAnswer q) := request q

/-- The configuration of the service, the SDK, and the message of a `ZodError`. -/
structure PayoutService where
  liveExecution : Bool
  signWithHotKey : Bool
  hotSignerSecret : Option String
  maxGasStroops : ℤ
  payoutMethodName : String
  payoutContractId : String
  sourceAccount : String
  sdk : Sdk
  zodMessage : List Issue → String

variable (svc : PayoutService)

/-! ## The service -/

/-- `mode` of a `BuildPayoutResult`. -/
inductive Mode where
  | build_only | queued
  deriving DecidableEq, Repr

/-- `deriveResponseMode(status)`. -/
def deriveResponseMode (status : PaymentStatus) : Mode :=
  if status = .queued then .queued else .build_only

/-- `BuildPayoutResult`. -/
structure BuildPayoutResult where
  mode : Mode
  transaction : PayoutRecord
  unsignedXdr : String

/-- The arguments of the call to the payout contract (lines 420-425). -/
def payoutArguments (payoutId destinationAccount amountStroops : String) :
    Except PaymentError (List ScVal) := do
  let id ← svc.sdk.nativeToScVal (← toBigInt payoutId) .u64
  let winner ← svc.sdk.newAddress destinationAccount
  let amount ← svc.sdk.nativeToScVal (← toBigInt amountStroops) .i128
  pure [id, .address winner, amount]

/-- What `buildPreparedTransaction` builds for an account (lines 417-434), with the
    amount. -/
def buildTransaction (accountId : String) (request : CreatePayoutRequest) :
    Except PaymentError (Transaction × String) := do
  let contract ← svc.sdk.newContract svc.payoutContractId
  let amountStroops ← toStroops request.amount
  let args ← payoutArguments svc request.payoutId request.destinationAccount amountStroops
  let operation := .invokeHostFunction (.invokeContract contract svc.payoutMethodName args)
  pure (⟨accountId, [operation]⟩, amountStroops)

/-- The checks of the fee (lines 440-448). -/
def checkFee (prepared : PreparedTransaction) : Except PaymentError Unit :=
  match prepared.fee with
  | none => .error (newError "Unable to determine prepared transaction fee")
  | some feeStroops =>
    if feeStroops ≤ 0 then .error (newError "Unable to determine prepared transaction fee")
    else if svc.maxGasStroops < feeStroops then
      .error (newError ("Prepared transaction fee " ++ toString feeStroops ++ " exceeds max gas " ++
        toString svc.maxGasStroops))
    else .ok ()

/-- `buildPreparedTransaction(request, nonce)`, which does not read the nonce. -/
def buildPreparedTransaction (request : CreatePayoutRequest) :
    PayoutProgram (PreparedTransaction × String) := do
  let accountId ← fetch (.getAccount svc.sourceAccount)
  let (built, amountStroops) ← done (buildTransaction svc accountId request)
  let prepared ← fetch (.prepareTransaction built)
  done (checkFee svc prepared)
  pure (prepared, amountStroops)

/-- The status of a new record and its signed form (lines 125-135). -/
def signPrepared (unsignedXdr : String) : Except PaymentError (PaymentStatus × Option String) :=
  if svc.liveExecution = false then .ok (.built, none)
  else if svc.signWithHotKey = true ∧ svc.hotSignerSecret.getD "" ≠ "" then do
    let signedXdr ← svc.sdk.sign (svc.hotSignerSecret.getD "") unsignedXdr
    pure (.queued, some signedXdr)
  else .ok (.awaiting_signature, none)

/-- `createPayoutTransaction` after no record has been found (lines 115-163). -/
def createNew (request : CreatePayoutRequest) : PayoutProgram BuildPayoutResult := do
  let nonce ← fetch (.reserveNextNonce svc.sourceAccount)
  let (prepared, amountStroops) ← buildPreparedTransaction svc request
  let now ← fetch .now
  let (status, signedXdr) ← done (signPrepared svc prepared.xdr)
  let id ← fetch .generateRecordId
  let transaction : PayoutRecord :=
    { id := id, status := status, signedXdr := signedXdr, txHash := none, errorMessage := none,
      attempts := 0, createdAt := now, updatedAt := now, confirmedAt := none
      payout := ⟨request.payoutId, request.idempotencyKey, svc.sourceAccount,
        request.destinationAccount, request.asset, amountStroops, nonce, prepared.xdr⟩ }
  fetch (.insert transaction)
  pure ⟨deriveResponseMode status, transaction, prepared.xdr⟩

/-- `createPayoutTransaction(input)` (lines 103-164). -/
def createPayoutTransaction (input : PayoutInput) : PayoutProgram BuildPayoutResult :=
  match parseCreatePayoutRequest input with
  | .error issues => throw (newError (svc.zodMessage issues))
  | .ok request => do
    match ← fetch (.findByIdempotencyKey request.idempotencyKey) with
    | some existing =>
      pure ⟨deriveResponseMode existing.status, existing, existing.payout.unsignedXdr⟩
    | none => createNew svc request

end InverseArena.Backend.Payments
