import InverseArena.Backend.RoundTypes

/-!
# Data of the payment service

`backend/src/types/payment.ts`, `queues/txQueue.ts` and what `paymentService.ts`
exchanges with the RPC server through the circuit breaker. Of a transaction record
the fields are kept that the service and its workers read or write. Times are in
milliseconds.
-/

namespace InverseArena.Backend.Payments

/-- `PaymentStatus`. -/
inductive PaymentStatus where
  | built | queued | awaiting_signature | submitted | confirmed | failed | dead
  deriving DecidableEq, Repr

/-- `TransactionRecord`. -/
structure TransactionRecord where
  id : String
  status : PaymentStatus
  signedXdr : Option String
  txHash : Option String
  errorMessage : Option String
  attempts : ℕ
  createdAt : ℕ
  updatedAt : ℕ
  confirmedAt : Option ℕ

/-- What an update of a record sets; every update sets `updatedAt`. -/
structure TransactionPatch where
  status : Option PaymentStatus
  txHash : Option String
  errorMessage : Option (Option String)
  attempts : Option ℕ
  updatedAt : ℕ
  confirmedAt : Option ℕ

/-- `{ updatedAt: new Date() }`. -/
def TransactionPatch.touch (updatedAt : ℕ) : TransactionPatch :=
  ⟨none, none, none, none, updatedAt, none⟩

/-- `{ ...current, ...patch }`. -/
def TransactionRecord.patched (current : TransactionRecord) (patch : TransactionPatch) :
    TransactionRecord :=
  { current with
    status := patch.status.getD current.status
    txHash := patch.txHash.orElse fun _ => current.txHash
    errorMessage := patch.errorMessage.getD current.errorMessage
    attempts := patch.attempts.getD current.attempts
    updatedAt := patch.updatedAt
    confirmedAt := patch.confirmedAt.orElse fun _ => current.confirmedAt }

/-- Who updates a record; the repository does not see it. -/
inductive Writer where
  | submitQueuedTransaction
  | confirmSubmittedTransaction
  | handleFailedTransaction
  | txReconciler
  deriving DecidableEq, Repr

/-- What `breaker.fire(action)` yields when it is not rejected by the action or by
    the timeout: a `CircuitOpenError`, or the action's result. -/
inductive Fired (α : Type) where
  | circuitOpen
  | result (a : α)

/-- `SubmitResult`. -/
structure SubmitResult where
  transaction : TransactionRecord
  submitted : Bool

/-- `PaymentWorkerResult`. -/
structure PaymentWorkerResult where
  processed : ℕ
  submitted : ℕ
  confirmed : ℕ
  failed : ℕ
  retried : ℕ
  deadLettered : ℕ

/-- The outcome of `handleFailedTransaction`. -/
inductive FailedOutcome where
  | retried | dead | waiting
  deriving DecidableEq, Repr

/-- A `Job<ConfirmJobData>`: its data, `attemptsMade` and `opts.attempts`. -/
structure Job where
  transactionId : String
  attemptsMade : ℕ
  attempts : Option ℕ

/-- What the service throws. -/
inductive PaymentError where
  /-- `Transaction ${transactionId} not found`. -/
  | notFound (transactionId : String)
  /-- `Transaction ${job.data.transactionId} still pending on-chain`. -/
  | stillPending (transactionId : String)
  /-- Whatever a library, the breaker's timeout or a rejected request throws, with
      its message if it is an `Error`. -/
  | rejected (message : Option String)

/-- The message of an `Error`. -/
def PaymentError.message : PaymentError → Option String
  | notFound transactionId => some ("Transaction " ++ transactionId ++ " not found")
  | stillPending transactionId =>
    some ("Transaction " ++ transactionId ++ " still pending on-chain")
  | rejected message => message

end InverseArena.Backend.Payments
