import InverseArena.Backend.Payments.Calls

/-!
# A working repository and network

The platform of the payment service as it answers when nothing fails, which lets
calls be executed.

Results:
* `work_serves`: a working platform answers what the platform may answer.
-/

namespace InverseArena.Backend.Payments

open Async Transition

/-- Whether the RPC server has found out about a transaction when it is asked. -/
inductive Lookup where
  | prompt
  | late
  deriving DecidableEq

variable (net : Network)

/-- The answer of the RPC server to a query about a transaction. -/
def reportNow (w : PaymentPlatform) (txHash : String) : Lookup → TransactionStatus
  | .late => .NOT_FOUND
  | .prompt =>
    match w.onChain txHash with
    | .succeeded => .SUCCESS
    | .failed => .FAILED none
    | .absent => .NOT_FOUND
    | .pending => .NOT_FOUND

/-- The answer of a working platform. -/
def work (lookup : Lookup) (_ : ℕ) :
    (q : Request) → PaymentPlatform → Option (Answer q × PaymentPlatform)
  | .now, w => some (0, w)
  | .findById id, w => some (w.records id, w)
  | .listByStatus statuses limit, w => some (w.listByStatus statuses limit, w)
  | .update _ id patch, w => some (w.update id patch)
  | .sendTransaction signedXdr, w =>
    some (.result ⟨.PENDING, net.hash signedXdr, none⟩, w.deliver (net.hash signedXdr))
  | .getTransaction txHash, w => some (.result (reportNow w txHash lookup), w)
  | .addConfirmJob _, w => some ((), w)

theorem reports_reportNow (w : PaymentPlatform) (txHash : String) (lookup : Lookup) :
    Reports w txHash (.result (reportNow w txHash lookup)) := by
  cases lookup with
  | late => exact trivial
  | prompt =>
    unfold reportNow
    cases honChain : w.onChain txHash with
    | succeeded => exact honChain
    | failed => exact honChain
    | absent => exact trivial
    | pending => exact trivial

theorem work_serves {lookup : Lookup} {i : ℕ} {q : Request} {w w' : PaymentPlatform}
    {a : Answer q} (h : work net lookup i q w = some (a, w')) : serves net i q w a w' := by
  cases q with
  | update writer id patch => exact (Option.some.inj h).symm
  | sendTransaction signedXdr =>
    cases h
    exact ⟨rfl, rfl⟩
  | getTransaction txHash =>
    cases h
    exact ⟨reports_reportNow _ _ _, rfl⟩
  | findById id =>
    cases h
    exact ⟨rfl, rfl⟩
  | listByStatus statuses limit =>
    cases h
    exact ⟨rfl, rfl⟩
  | _ =>
    cases h
    rfl

/-- What happens besides, where it is possible. -/
def moveNow : PaymentMove → PaymentPlatform → Option PaymentPlatform
  | .settled hash outcome, w =>
    if w.onChain hash = .pending then
      some { w with onChain := Function.update w.onChain hash outcome }
    else none

theorem moveNow_moves {m : PaymentMove} {w w' : PaymentPlatform} (h : moveNow m w = some w') :
    PaymentPlatform.Moves m w w' := by
  cases m with
  | settled hash outcome =>
    simp only [moveNow] at h
    split_ifs at h with hpending
    cases h
    exact ⟨hpending, rfl⟩

/-- A script for the platform: hints tell what the RPC server finds. -/
def working : Script (platform net) Lookup where
  serve := work net
  move := moveNow
  serve_sound := work_serves net
  move_sound := moveNow_moves

/-! ## A sample payout -/

def sampleNetwork : Network := ⟨fun signedXdr => "hash of " ++ signedXdr⟩

/-- The service with its default configuration and a queue. -/
def sampleConfig : Service where
  liveExecution := true
  maxAttempts := 5
  confirmMaxPolls := 20
  failedRetryMax := 3
  failedRetryBaseMs := 5000
  txQueue := true
  fromXDR _ := .ok ()

/-- A payout that has been signed and queued. -/
def sampleTransaction : TransactionRecord where
  id := "payout"
  status := .queued
  signedXdr := some "xdr"
  txHash := none
  errorMessage := none
  attempts := 0
  createdAt := 0
  updatedAt := 0
  confirmedAt := none

/-- Nothing else is stored, and the network has nothing. -/
def sampleStore : PaymentPlatform where
  ids := ["payout"]
  records id := if id = "payout" then some sampleTransaction else none
  onChain _ := .absent

theorem sampleStore_linked : Linked sampleNetwork sampleStore := by
  intro id row hrow
  have hstored : (if id = "payout" then some sampleTransaction else none) = some row := hrow
  split_ifs at hstored with hid
  cases hstored
  exact ⟨hid.symm, fun _ h => nomatch h⟩

end InverseArena.Backend.Payments
