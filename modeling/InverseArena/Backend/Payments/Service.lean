import InverseArena.Backend.Payments.Types
import InverseArena.Library.Async
import Mathlib.Algebra.Group.Nat.Defs

/-!
# The payment service and its workers

`backend/src/services/paymentService.ts` from `submitQueuedTransaction` to
`pollConfirmation`, `workers/paymentWorker.ts` and `workers/txReconciler.ts`, as
programs that await the repository, the RPC server and the job queue. Logging,
metrics and the pauses between two polls are left out.
-/

namespace InverseArena.Backend.Payments

open Async

/-! ## Requests -/

/-- What the service awaits. -/
inductive Request where
  /-- A reading of the clock. -/
  | now
  /-- `transactions.findById(id)`. -/
  | findById (id : String)
  /-- `transactions.listByStatus(statuses, limit)`. -/
  | listByStatus (statuses : List PaymentStatus) (limit : ℕ)
  /-- `findByIdAndUpdate(id, { $set: patch })`. -/
  | update (writer : Writer) (id : String) (patch : TransactionPatch)
  /-- `breaker.fire(() => rpcServer.sendTransaction(signedTransaction))`. -/
  | sendTransaction (signedXdr : String)
  /-- `breaker.fire(() => rpcServer.getTransaction(txHash))`. -/
  | getTransaction (txHash : String)
  /-- `txQueue.add("confirm", { transactionId })`. -/
  | addConfirmJob (transactionId : String)

/-- What a fulfilled request yields. -/
abbrev Answer : Request → Type
  | .now => ℕ
  | .findById _ => Option TransactionRecord
  | .listByStatus _ _ => List TransactionRecord
  | .update _ _ _ => Option TransactionRecord
  | .sendTransaction _ => Fired SendResponse
  | .getTransaction _ => Fired TransactionStatus
  | .addConfirmJob _ => Unit

/-- A program of the service. -/
abbrev Program := Async Answer PaymentError

/-- Awaits the answer to `q`. -/
def ask (q : Request) : Program (Answer q) := request q

/-- `Date.now()`, which is some number and does not fail. -/
def now : Program ℕ := tryCatch (ask .now) fun _ => pure 0

/-- The configuration of the service and of its worker, and the function of the SDK
    that parses a signed transaction. -/
structure Service where
  liveExecution : Bool
  maxAttempts : ℕ
  confirmMaxPolls : ℕ
  failedRetryMax : ℕ
  failedRetryBaseMs : ℕ
  /-- Whether the worker has a queue for confirmations. -/
  txQueue : Bool
  /-- `TransactionBuilder.fromXDR(signedXdr, networkPassphrase)`. -/
  fromXDR : String → Except PaymentError Unit

variable (svc : Service)

/-- `requireTransaction(transactionId)`. -/
def requireTransaction (transactionId : String) : Program TransactionRecord := do
  let transaction ← ask (.findById transactionId)
  orThrow transaction (.notFound transactionId)

/-- `transactions.update(id, patch)`. -/
def update (writer : Writer) (id : String) (patch : TransactionPatch) :
    Program TransactionRecord := do
  let updated ← ask (.update writer id patch)
  orThrow updated (.notFound id)

/-! ## Submission -/

/-- What `submitQueuedTransaction` makes of the answer to its submission
    (lines 234-261). -/
def recordSubmission (transaction : TransactionRecord) (attempts : ℕ) (sendResult : SendResponse) :
    Program SubmitResult :=
  match sendResult.status with
  | .ERROR => do
    let failed ← update .submitQueuedTransaction transaction.id
      { TransactionPatch.touch (← now) with
        attempts := some attempts
        status := some .failed
        txHash := some sendResult.hash
        errorMessage := some (some "Soroban rejected transaction during submission") }
    pure ⟨failed, false⟩
  | .TRY_AGAIN_LATER => do
    let queued ← update .submitQueuedTransaction transaction.id
      { TransactionPatch.touch (← now) with
        attempts := some attempts
        errorMessage := some (some "Soroban requested retry later") }
    pure ⟨queued, false⟩
  | _ => do
    let submitted ← update .submitQueuedTransaction transaction.id
      { TransactionPatch.touch (← now) with
        attempts := some attempts
        status := some .submitted
        txHash := some sendResult.hash
        errorMessage := some none }
    pure ⟨submitted, true⟩

/-- The body of the `try` of `submitQueuedTransaction` (lines 217-261). -/
def sendSigned (transaction : TransactionRecord) (signedXdr : String) (attempts : ℕ) :
    Program SubmitResult := do
  done (svc.fromXDR signedXdr)
  match ← ask (.sendTransaction signedXdr) with
  | .circuitOpen => pure ⟨transaction, false⟩
  | .result sendResult => recordSubmission transaction attempts sendResult

/-- The updates of `submitQueuedTransaction` that give the transaction up without an
    answer from the RPC server (lines 197-201, 206-210 and 264-269). -/
def giveUp (transaction : TransactionRecord) (attempts : Option ℕ) (message : String) :
    Program SubmitResult := do
  let failed ← update .submitQueuedTransaction transaction.id
    { TransactionPatch.touch (← now) with
      attempts := attempts
      status := some .failed
      errorMessage := some (some message) }
  pure ⟨failed, false⟩

/-- `submitQueuedTransaction(transactionId)` (lines 185-272). -/
def submitQueuedTransaction (transactionId : String) : Program SubmitResult := do
  let transaction ← requireTransaction transactionId
  if transaction.status ≠ .queued then pure ⟨transaction, false⟩
  else if svc.liveExecution = false then pure ⟨transaction, false⟩
  else
    match transaction.signedXdr with
    | none => giveUp transaction none "Missing signed XDR for queued transaction"
    | some "" => giveUp transaction none "Missing signed XDR for queued transaction"
    | some signedXdr =>
      if svc.maxAttempts ≤ transaction.attempts then
        giveUp transaction none ("Max submit attempts reached (" ++ toString svc.maxAttempts ++ ")")
      else
        tryCatch (sendSigned svc transaction signedXdr (transaction.attempts + 1)) fun error =>
          giveUp transaction (some (transaction.attempts + 1))
            (error.message.getD "Unknown submission failure")

/-! ## Confirmation -/

/-- `confirmSubmittedTransaction(transactionId)` (lines 274-312). -/
def confirmSubmittedTransaction (transactionId : String) : Program TransactionRecord := do
  let transaction ← requireTransaction transactionId
  if transaction.status ≠ .submitted then pure transaction
  else
    match transaction.txHash with
    | none => pure transaction
    | some "" => pure transaction
    | some txHash =>
      match ← ask (.getTransaction txHash) with
      | .circuitOpen => pure transaction
      | .result .SUCCESS =>
        update .confirmSubmittedTransaction transaction.id
          { TransactionPatch.touch (← now) with
            status := some .confirmed
            confirmedAt := some (← now)
            errorMessage := some none }
      | .result (.FAILED _) =>
        update .confirmSubmittedTransaction transaction.id
          { TransactionPatch.touch (← now) with
            status := some .failed
            errorMessage := some (some "Transaction failed on-chain") }
      | .result .NOT_FOUND => pure transaction

/-- The loop of `pollConfirmation`, with the polls that are left. -/
def pollCurrent (current : TransactionRecord) : ℕ → Program TransactionRecord
  | 0 => pure current
  | polls + 1 => do
    let refreshed ← confirmSubmittedTransaction current.id
    if refreshed.status = .confirmed ∨ refreshed.status = .failed then pure refreshed
    else pollCurrent refreshed polls

/-- `pollConfirmation(transactionId)`. -/
def pollConfirmation (transactionId : String) : Program TransactionRecord := do
  let current ← requireTransaction transactionId
  pollCurrent current svc.confirmMaxPolls

/-! ## The payment worker -/

/-- `handleFailedTransaction(transaction)` (lines 127-188). -/
def handleFailedTransaction (transaction : TransactionRecord) : Program FailedOutcome := do
  let retriable := transaction.signedXdr.getD "" ≠ ""
  if ¬ retriable ∨ svc.failedRetryMax ≤ transaction.attempts then
    let _ ← update .handleFailedTransaction transaction.id
      { TransactionPatch.touch (← now) with
        status := some .dead
        errorMessage := some (some ("Dead-lettered after " ++ toString transaction.attempts ++
          " attempt(s): " ++ transaction.errorMessage.getD "unknown failure")) }
    pure .dead
  else
    let backoffMs := svc.failedRetryBaseMs * 2 ^ (transaction.attempts - 1)
    let elapsedMs : ℤ := ((← now : ℕ) : ℤ) - transaction.updatedAt
    if elapsedMs < backoffMs then pure .waiting
    else
      let _ ← update .handleFailedTransaction transaction.id
        { TransactionPatch.touch (← now) with status := some .queued }
      pure .retried

/-- The `catch` of the loop of `processBatch`, with the counts at the throw. -/
def countingFailure (counts : PaymentWorkerResult) (body : Program PaymentWorkerResult) :
    Program PaymentWorkerResult :=
  tryCatch body fun _ => pure { counts with failed := counts.failed + 1 }

/-- The counts after `submitQueuedTransaction` has returned (lines 75-78). -/
def countSubmission (counts : PaymentWorkerResult) (result : SubmitResult) : PaymentWorkerResult :=
  if result.transaction.status = .failed then { counts with failed := counts.failed + 1 }
  else counts

/-- One turn of the loop of `processBatch` (lines 54-106). -/
def processTransaction (transaction : TransactionRecord) (counts : PaymentWorkerResult) :
    Program PaymentWorkerResult :=
  countingFailure counts do
    if transaction.status = .failed then
      match ← handleFailedTransaction svc transaction with
      | .retried => pure { counts with retried := counts.retried + 1 }
      | .dead => pure { counts with deadLettered := counts.deadLettered + 1 }
      | .waiting => pure counts
    else if transaction.status = .queued then
      let result ← submitQueuedTransaction svc transaction.id
      if result.submitted = true then
        let submitted := { counts with submitted := counts.submitted + 1 }
        countingFailure submitted do
          if svc.txQueue = true then ask (.addConfirmJob transaction.id)
          pure (countSubmission submitted result)
      else pure (countSubmission counts result)
    else if svc.txQueue = true then pure counts
    else
      let refreshed ← confirmSubmittedTransaction transaction.id
      if refreshed.status = .confirmed then
        pure { counts with confirmed := counts.confirmed + 1 }
      else if refreshed.status = .failed then
        pure { counts with failed := counts.failed + 1 }
      else pure counts

def processAll : List TransactionRecord → PaymentWorkerResult → Program PaymentWorkerResult
  | [], counts => pure counts
  | transaction :: pending, counts => do
    let counts' ← processTransaction svc transaction counts
    processAll pending counts'

/-- `PaymentWorker.processBatch(limit)` (lines 42-116). -/
def processBatch (limit : ℕ) : Program PaymentWorkerResult := do
  let pending ← ask (.listByStatus [.queued, .submitted, .failed] limit)
  processAll svc pending ⟨pending.length, 0, 0, 0, 0, 0⟩

/-! ## The reconciler -/

/-- The processor of the `tx-confirm` queue. -/
def processJob (job : Job) : Program Unit := do
  let tx ← confirmSubmittedTransaction job.transactionId
  check (tx.status ≠ .submitted) (.stillPending job.transactionId)

/-- `worker.on("failed", ..)`. -/
def onFailed (job : Option Job) (err : PaymentError) : Program Unit :=
  match job with
  | none => pure ()
  | some job =>
    let maxAttempts := job.attempts.getD 10
    if job.attemptsMade < maxAttempts then pure ()
    else do
      let _ ← update .txReconciler job.transactionId
        { TransactionPatch.touch (← now) with
          status := some .dead
          errorMessage := some (some ("Confirmation failed after " ++ toString maxAttempts ++
            " attempts: " ++ err.message.getD "undefined")) }
      pure ()

/-- What BullMQ does with a job: it runs the processor, and when that throws it
    counts the attempt and reports the failure. -/
def reconcile (job : Job) : Program Unit :=
  tryCatch (processJob job) fun err =>
    onFailed (some { job with attemptsMade := job.attemptsMade + 1 }) err

end InverseArena.Backend.Payments
