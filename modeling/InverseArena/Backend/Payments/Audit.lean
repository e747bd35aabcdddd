import InverseArena.Backend.Payments.Stores

/-!
# Is the audit of signed payouts exact?

`queueSignedTransaction` of `backend/src/services/paymentService.ts` and the audit of
the signed transaction. The audit gives `Address.fromScAddress` what `scValToNative`
makes of the destination, which is a text and not an `xdr.ScAddress`: the conversion
throws, and no transaction is ever accepted.

Results:
* `queueSignedTransaction_rejects`: a signed transaction is rejected and the store left
  as it is, whatever it is.
* `audit_of_matches`: the transaction that the service has built passes every check
  before the destination.
* `audit_exact_iff`: the audit is exact for the transactions that do not match.
-/

namespace InverseArena.Backend.Payments

open Async

variable (svc : PayoutService)

/-! ## The audit -/

/-- `if (!condition) throw new Error(message)`. -/
def require (condition : Prop) [Decidable condition] (message : String) :
    Except PaymentError Unit :=
  if condition then .ok () else .error (newError message)

/-- The checks of the arguments (lines 376-393); the payout id is not compared. -/
def checkArguments (payout : Payout) (args : List ScVal) : Except PaymentError Unit :=
  match args with
  | [_, winner, amount] => do
    let native ← svc.sdk.scValToNative winner
    let destination ← svc.sdk.fromScAddress native
    require (destination = payout.destinationAccount)
      "Signed transaction destination does not match the payout record"
    let paid ← svc.sdk.scValToNative amount
    require (paid.text = payout.amountStroops)
      "Signed transaction amount does not match the payout record"
  | _ => .error (newError "Signed transaction must have exactly 3 contract arguments")

/-- The checks of the operation (lines 360-393). -/
def checkOperation (payout : Payout) : Operation → Except PaymentError Unit
  | .other _ => .error (newError "Signed transaction operation is not a contract invocation")
  | .invokeHostFunction (.other _) =>
    .error (newError "Signed transaction does not invoke a contract")
  | .invokeHostFunction (.invokeContract contractAddress functionName args) => do
    let contractId ← svc.sdk.fromScAddress (.scAddress contractAddress)
    require (contractId = svc.payoutContractId) "Signed transaction targets an unexpected contract"
    require (functionName = svc.payoutMethodName)
      "Signed transaction calls an unexpected contract method"
    checkArguments svc payout args

/-- `assertSignedTransactionMatches(signedXdr, transaction)` (lines 336-394). -/
def assertSignedTransactionMatches (signedXdr : String) (payout : Payout) :
    Except PaymentError Unit :=
  match svc.sdk.fromXDR signedXdr with
  | .error _ => .error (newError "Signed XDR could not be parsed")
  | .ok .feeBump => .error (newError "Signed transaction must not be a fee-bump transaction")
  | .ok (.transaction tx) => do
    require (tx.source = svc.sourceAccount)
      "Signed transaction source account does not match the payout source"
    match tx.operations with
    | [operation] => checkOperation svc payout operation
    | _ => .error (newError "Signed transaction must contain exactly one operation")

/-- `queueSignedTransaction(transactionId, signedXdr)` (lines 166-183). -/
def queueSignedTransaction (transactionId signedXdr : String) : PayoutProgram PayoutRecord := do
  let found ← fetch (.findById transactionId)
  let transaction ← orThrow found (.notFound transactionId)
  check (transaction.status = .awaiting_signature ∨ transaction.status = .built)
    (newError ("Transaction " ++ transactionId ++ " is not waiting for signature"))
  done (assertSignedTransactionMatches svc signedXdr transaction.payout)
  let updatedAt ← fetch .now
  let updated ← fetch (.update transactionId ⟨signedXdr, updatedAt⟩)
  orThrow updated (.notFound transactionId)

/-! ## What is to be accepted -/

/-- The transaction is not a fee bump, its source is the payout source, and its only
    operation invokes the configured contract and method with the arguments that
    `buildPreparedTransaction` has encoded for the record. -/
def Matches (payout : Payout) (parsed : Parsed) : Prop :=
  ∃ contract args, svc.sdk.newContract svc.payoutContractId = .ok contract ∧
    payoutArguments svc payout.payoutId payout.destinationAccount payout.amountStroops =
      .ok args ∧
    parsed = .transaction ⟨svc.sourceAccount,
      [.invokeHostFunction (.invokeContract contract svc.payoutMethodName args)]⟩

variable (repo : Repository)

/-- The signed transaction is accepted: it is returned and stored, to be submitted. -/
def Accepts (s : PayoutStore) (id signedXdr : String) : Prop :=
  ∃ rs row s', Exec repo.payoutServer 0 (queueSignedTransaction svc id signedXdr) s rs
    (.ok row) s' ∧ s'.findRow id = some row ∧ row.status = .queued ∧
    row.signedXdr = some signedXdr

/-- The record waits for a signature, and the signed transaction can be parsed. -/
structure Waiting (s : PayoutStore) (id signedXdr : String) (row : PayoutRecord)
    (parsed : Parsed) : Prop where
  found : s.findRow id = some row
  status : row.status = .awaiting_signature ∨ row.status = .built
  parsed : svc.sdk.fromXDR signedXdr = .ok parsed

/-- The audit of a signed transaction is exact: the transaction is accepted if and only
    if it matches the record; otherwise the call throws, whatever becomes of its
    requests, and the store stays as it is. -/
def AuditExact (s : PayoutStore) (id signedXdr : String) : Prop :=
  ∀ row parsed, Waiting svc s id signedXdr row parsed →
    (Accepts svc repo s id signedXdr ↔ Matches svc row.payout parsed) ∧
    (¬ Matches svc row.payout parsed →
      Ensures repo.payoutServer 0 (queueSignedTransaction svc id signedXdr) s
        fun _ r s' => (∃ e, r = .error e) ∧ s' = s)

/-! ## Addresses are read as texts -/

/-- What the SDK documents of its conversions of addresses: `scValToNative` yields plain
    values, for an address its text, and `Address.fromScAddress` takes an
    `xdr.ScAddress` and throws on anything else. -/
structure Sdk.Addresses (sdk : Sdk) : Prop where
  text : ∀ a, sdk.scValToNative (.address a) = .ok (.string a.strkey)
  plain : ∀ value a, sdk.scValToNative value ≠ .ok (.scAddress a)
  fromScAddress : ∀ a, sdk.fromScAddress (.scAddress a) = .ok a.strkey
  throws : ∀ value address, sdk.fromScAddress value = .ok address → ∃ a, value = .scAddress a
  newContract : ∀ id contract, sdk.newContract id = .ok contract → contract.strkey = id

variable {svc repo}

theorem require_true [Decidable True] (message : String) : require True message = .ok () :=
  if_pos trivial

/-- A computation after one that may throw throws if it does. -/
theorem bind_throws {α β : Type} {r : Except PaymentError α} {f : α → Except PaymentError β}
    (h : ∀ a, r = .ok a → ∃ e, f a = .error e) : ∃ e, (r >>= f) = .error e := by
  cases r with
  | error e => exact ⟨e, rfl⟩
  | ok a => exact h a rfl

section

variable (h : svc.sdk.Addresses)

include h

/-- The destination is never read. -/
theorem checkArguments_throws (payout : Payout) (args : List ScVal) :
    ∃ e, checkArguments svc payout args = .error e := by
  unfold checkArguments
  split
  · rename_i winner amount
    refine bind_throws fun native hnative => bind_throws fun destination hdestination => ?_
    obtain ⟨a, rfl⟩ := h.throws native destination hdestination
    exact absurd hnative (h.plain winner a)
  · exact ⟨_, rfl⟩

theorem checkOperation_throws (payout : Payout) (operation : Operation) :
    ∃ e, checkOperation svc payout operation = .error e := by
  cases operation with
  | other type => exact ⟨_, rfl⟩
  | invokeHostFunction func =>
    cases func with
    | other name => exact ⟨_, rfl⟩
    | invokeContract contractAddress functionName args =>
      refine bind_throws fun contractId _ => bind_throws fun _ _ => bind_throws fun _ _ => ?_
      exact checkArguments_throws h payout args

/-- No signed transaction passes the audit. -/
theorem assertSignedTransactionMatches_throws (signedXdr : String) (payout : Payout) :
    ∃ e, assertSignedTransactionMatches svc signedXdr payout = .error e := by
  unfold assertSignedTransactionMatches
  split
  · exact ⟨_, rfl⟩
  · exact ⟨_, rfl⟩
  · refine bind_throws fun _ _ => ?_
    split
    · exact checkOperation_throws h payout _
    · exact ⟨_, rfl⟩

/-- Every signed transaction is rejected and leaves the store as it is. -/
theorem queueSignedTransaction_rejects (s : PayoutStore) (id signedXdr : String) :
    Ensures repo.payoutServer 0 (queueSignedTransaction svc id signedXdr) s
      fun _ r s' => (∃ e, r = .error e) ∧ s' = s := by
  unfold queueSignedTransaction fetch
  rw [ensures_bind, ensures_request]
  refine ⟨?_, ?_, ?_⟩
  · rintro found s' ⟨-, rfl⟩
    dsimp only
    rw [ensures_bind, ensures_orThrow]
    refine ⟨fun transaction _ => ?_, fun _ => ⟨⟨_, rfl⟩, rfl⟩⟩
    dsimp only
    rw [ensures_bind, ensures_check]
    refine ⟨fun _ => ?_, fun _ => ⟨⟨_, rfl⟩, rfl⟩⟩
    obtain ⟨e, he⟩ := assertSignedTransactionMatches_throws h signedXdr transaction.payout
    dsimp only
    rw [ensures_bind, he, ensures_done]
    exact ⟨⟨e, rfl⟩, rfl⟩
  · rintro found e s' ⟨-, rfl⟩
    exact ⟨⟨e, rfl⟩, rfl⟩
  · exact fun e => ⟨⟨e, rfl⟩, rfl⟩

theorem not_accepts (s : PayoutStore) (id signedXdr : String) :
    ¬ Accepts svc repo s id signedXdr := by
  rintro ⟨rs, row, s', hexec, -⟩
  obtain ⟨⟨e, he⟩, -⟩ := queueSignedTransaction_rejects h s id signedXdr rs _ s' hexec
  cases he

end

/-- The arguments of a built transaction, the destination among them. -/
theorem payoutArguments_ok {payoutId destinationAccount amountStroops : String} {args : List ScVal}
    (hargs : payoutArguments svc payoutId destinationAccount amountStroops = .ok args) :
    ∃ id winner amount, svc.sdk.newAddress destinationAccount = .ok winner ∧
      args = [id, .address winner, amount] := by
  unfold payoutArguments at hargs
  cases hid : toBigInt payoutId with
  | error e => simp [hid, bind, Except.bind] at hargs
  | ok z =>
    cases hnative : svc.sdk.nativeToScVal z .u64 with
    | error e => simp [hid, hnative, bind, Except.bind] at hargs
    | ok id =>
      cases hwinner : svc.sdk.newAddress destinationAccount with
      | error e => simp [hid, hnative, hwinner, bind, Except.bind] at hargs
      | ok winner =>
        cases hamount : toBigInt amountStroops with
        | error e => simp [hid, hnative, hwinner, hamount, bind, Except.bind] at hargs
        | ok paid =>
          cases hpaid : svc.sdk.nativeToScVal paid .i128 with
          | error e => simp [hid, hnative, hwinner, hamount, hpaid, bind, Except.bind] at hargs
          | ok amount =>
            simp only [hid, hnative, hwinner, hamount, hpaid, bind, Except.bind, pure, Except.pure,
              Except.ok.injEq] at hargs
            exact ⟨id, winner, amount, rfl, hargs.symm⟩

/-- The transaction that the service has built passes the audit up to the destination;
    what is thrown there is what `Address.fromScAddress` throws on a text. -/
theorem audit_of_matches (h : svc.sdk.Addresses) {payout : Payout} {signedXdr : String}
    {parsed : Parsed} (hparsed : svc.sdk.fromXDR signedXdr = .ok parsed)
    (hmatches : Matches svc payout parsed) :
    ∃ winner, svc.sdk.newAddress payout.destinationAccount = .ok winner ∧
      ∀ e, svc.sdk.fromScAddress (.string winner.strkey) = .error e →
        assertSignedTransactionMatches svc signedXdr payout = .error e := by
  obtain ⟨contract, args, hcontract, hargs, rfl⟩ := hmatches
  obtain ⟨id, winner, amount, hwinner, rfl⟩ := payoutArguments_ok hargs
  refine ⟨winner, hwinner, fun e he => ?_⟩
  have hid : contract.strkey = svc.payoutContractId := h.newContract _ _ hcontract
  have harguments : checkArguments svc payout [id, .address winner, amount] = .error e := by
    simp only [checkArguments, h.text, he, bind, Except.bind]
  have hoperation : checkOperation svc payout (.invokeHostFunction
      (.invokeContract contract svc.payoutMethodName [id, .address winner, amount])) =
      .error e := by
    simp only [checkOperation, h.fromScAddress, hid, require_true, harguments, bind, Except.bind]
  unfold assertSignedTransactionMatches
  rw [hparsed]
  simp only [require_true, hoperation, bind, Except.bind]

/-! ## Exactness -/

/-- The audit is exact for a signed transaction if and only if it is not the one that
    was to be signed. -/
theorem audit_exact_iff (svc : PayoutService) (repo : Repository) (h : svc.sdk.Addresses)
    (s : PayoutStore) (id signedXdr : String) :
    AuditExact svc repo s id signedXdr ↔
      ∀ row parsed, Waiting svc s id signedXdr row parsed → ¬ Matches svc row.payout parsed := by
  constructor
  · intro hexact row parsed hwaiting hmatches
    exact not_accepts h s id signedXdr ((hexact row parsed hwaiting).1.mpr hmatches)
  · intro hnone row parsed hwaiting
    refine ⟨⟨fun haccepts => absurd haccepts (not_accepts h s id signedXdr), fun hmatches => ?_⟩,
      fun _ => queueSignedTransaction_rejects h s id signedXdr⟩
    exact absurd hmatches (hnone row parsed hwaiting)

/-! ## A signed payout -/

/-- The arguments of a payout of ten XLM. -/
def sampleArguments (stroops : ℤ) : List ScVal :=
  [.u64 1, .address ⟨"GBRPYHIL2CI3FNQ4BXLFMNDLFJUNPU2HY3ZMFSHONUCEOASW7QC7OX2H"⟩, .i128 stroops]

/-- What the signers return: the payout, or another amount. -/
def sampleSigned (signedXdr : String) : Option Parsed :=
  let signed (stroops : ℤ) : Parsed :=
    .transaction ⟨"GBRPYHIL2CI3FNQ4BXLFMNDLFJUNPU2HY3ZMFSHONUCEOASW7QC7OX2H",
      [.invokeHostFunction (.invokeContract
        ⟨"CAAAAAAAAAAAAAAAAAAAAAAAAAAAAAAAAAAAAAAAAAAAAAAAAAAAD2KM"⟩ "distribute_winnings"
        (sampleArguments stroops))]⟩
  if signedXdr = "honest" then some (signed 100000000)
  else if signedXdr = "altered" then some (signed 999)
  else none

/-- The service of the tests on the audit. -/
def sampleAuditing : PayoutService where
  liveExecution := true
  signWithHotKey := false
  hotSignerSecret := none
  maxGasStroops := 2000000
  payoutMethodName := "distribute_winnings"
  payoutContractId := "CAAAAAAAAAAAAAAAAAAAAAAAAAAAAAAAAAAAAAAAAAAAAAAAAAAAD2KM"
  sourceAccount := "GBRPYHIL2CI3FNQ4BXLFMNDLFJUNPU2HY3ZMFSHONUCEOASW7QC7OX2H"
  sdk := sampleSdk sampleSigned
  zodMessage _ := "invalid"

/-- The record of the payout, which awaits its signature. -/
def sampleWaiting : PayoutRecord where
  id := "a"
  status := .awaiting_signature
  signedXdr := none
  txHash := none
  errorMessage := none
  attempts := 0
  createdAt := 0
  updatedAt := 0
  confirmedAt := none
  payout := ⟨"1", "payout:1", "GBRPYHIL2CI3FNQ4BXLFMNDLFJUNPU2HY3ZMFSHONUCEOASW7QC7OX2H",
    "GBRPYHIL2CI3FNQ4BXLFMNDLFJUNPU2HY3ZMFSHONUCEOASW7QC7OX2H", "XLM", "100000000", 1, "prepared"⟩

def sampleRows : PayoutStore := { PayoutStore.empty with rows := [sampleWaiting] }

theorem sampleAuditing_addresses : sampleAuditing.sdk.Addresses where
  text _ := rfl
  plain value a h := by cases value <;> cases h
  fromScAddress _ := rfl
  throws value address h := by
    cases value with
    | scAddress a => exact ⟨a, rfl⟩
    | _ => cases h
  newContract id contract h := by
    cases h
    rfl

/-- The arguments that the service has built for the record. -/
theorem sampleAuditing_arguments : payoutArguments sampleAuditing "1"
    "GBRPYHIL2CI3FNQ4BXLFMNDLFJUNPU2HY3ZMFSHONUCEOASW7QC7OX2H" "100000000" =
      .ok (sampleArguments 100000000) := by
  have hid : bigInt "1" = some 1 := by decide +kernel
  have hamount : bigInt "100000000" = some 100000000 := by decide +kernel
  simp only [payoutArguments, toBigInt, hid, hamount, bind, Except.bind, pure, Except.pure]
  rfl

/-- The payout that was to be signed, signed as it was built, is rejected. -/
theorem not_audit_exact : Waiting sampleAuditing sampleRows "a" "honest" sampleWaiting
      (.transaction ⟨"GBRPYHIL2CI3FNQ4BXLFMNDLFJUNPU2HY3ZMFSHONUCEOASW7QC7OX2H",
        [.invokeHostFunction (.invokeContract
          ⟨"CAAAAAAAAAAAAAAAAAAAAAAAAAAAAAAAAAAAAAAAAAAAAAAAAAAAD2KM"⟩ "distribute_winnings"
          (sampleArguments 100000000))]⟩) ∧
    ¬ AuditExact sampleAuditing .inMemory sampleRows "a" "honest" := by
  have hwaiting : Waiting sampleAuditing sampleRows "a" "honest" sampleWaiting _ :=
    ⟨by rfl, .inl rfl, by rfl⟩
  refine ⟨hwaiting, fun hexact => ?_⟩
  refine not_accepts sampleAuditing_addresses sampleRows "a" "honest"
    ((hexact _ _ hwaiting).1.mpr ?_)
  exact ⟨⟨_⟩, _, rfl, sampleAuditing_arguments, rfl⟩

/-- A transaction with another amount is rejected, as it is to be. -/
theorem audit_exact_iff_altered :
    AuditExact sampleAuditing .inMemory sampleRows "a" "altered" := by
  refine (audit_exact_iff sampleAuditing .inMemory sampleAuditing_addresses _ _ _).mpr ?_
  rintro row parsed ⟨hfound, -, hparsed⟩ ⟨contract, args, -, hargs, hmatch⟩
  cases hfound
  cases sampleAuditing_arguments.symm.trans hargs
  subst hmatch
  cases hparsed

end InverseArena.Backend.Payments
