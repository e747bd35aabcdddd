import InverseArena.Backend.Payments.Service
import InverseArena.Library.Interleaving

/-!
# What the payment service runs on

The repository of transaction records, whose updates are atomic and set the fields of
their patch, and the network behind the RPC server. Any update may be refused (a
schema that leaves a status out refuses it always). The network answers truthfully, or
not at all: a transaction is reported as succeeded or failed only after a ledger has
included it so, and may be reported as not found at any time. The breaker may reject
any call.

Results:
* `conducted_processBatch`, `conducted_reconcile` and the like: a program sends only
  what it has read, and gives a submitted transaction up as failed on-chain only
  after it has been told so.
-/

namespace InverseArena.Backend.Payments

open Async

/-! ## The shared state -/

/-- What the network has made of a signed transaction; one whose time bounds have
    passed is dropped. -/
inductive OnChain where
  | absent | pending | succeeded | failed
  deriving DecidableEq, Repr

/-- The hash of a signed transaction. -/
structure Network where
  hash : String → String

/-- The records by their ids, which are listed in the order of insertion, and the
    network by the hashes of transactions. -/
structure PaymentPlatform where
  ids : List String
  records : String → Option TransactionRecord
  onChain : String → OnChain

namespace PaymentPlatform

/-- The records with one of the statuses, the oldest first. -/
def listByStatus (w : PaymentPlatform) (statuses : List PaymentStatus) (limit : ℕ) :
    List TransactionRecord :=
  (((w.ids.filterMap w.records).filter (·.status ∈ statuses)).mergeSort
    fun a b => a.createdAt ≤ b.createdAt).take limit

/-- The updated record, if there is one with this id. It is one step also of the SQL
    repository, which reads the row and then writes every column of it. -/
def update (w : PaymentPlatform) (id : String) (patch : TransactionPatch) :
    Option TransactionRecord × PaymentPlatform :=
  match w.records id with
  | none => (none, w)
  | some current => (some (current.patched patch),
      { w with records := Function.update w.records id (some (current.patched patch)) })

/-- A transaction reaches the network. -/
def deliver (w : PaymentPlatform) (hash : String) : PaymentPlatform :=
  if w.onChain hash = .absent then
    { w with onChain := Function.update w.onChain hash .pending }
  else w

end PaymentPlatform

variable (net : Network)

/-- The answers to a submission and what they do. One that is given up has reached the
    network by then, or does not reach it. -/
def Submits (signedXdr : String) (w : PaymentPlatform) :
    Fired SendResponse → PaymentPlatform → Prop
  | .circuitOpen, w' => w' = w
  | .result sendResult, w' => sendResult.hash = net.hash signedXdr ∧
    match sendResult.status with
    | .PENDING => w' = w.deliver (net.hash signedXdr)
    | .DUPLICATE => w.onChain (net.hash signedXdr) ≠ .absent ∧ w' = w
    | .ERROR => w' = w
    | .TRY_AGAIN_LATER => w' = w

/-- The answers to a query about a transaction. -/
def Reports (w : PaymentPlatform) (txHash : String) : Fired TransactionStatus → Prop
  | .circuitOpen => True
  | .result .SUCCESS => w.onChain txHash = .succeeded
  | .result (.FAILED _) => w.onChain txHash = .failed
  | .result .NOT_FOUND => True

/-- What serving a request does. -/
def serves (_ : ℕ) : (q : Request) → PaymentPlatform → Answer q → PaymentPlatform → Prop
  | .now, w, _, w' => w' = w
  | .findById id, w, a, w' => a = w.records id ∧ w' = w
  | .listByStatus statuses limit, w, a, w' => a = w.listByStatus statuses limit ∧ w' = w
  | .update _ id patch, w, a, w' => (a, w') = w.update id patch
  | .sendTransaction signedXdr, w, a, w' => Submits net signedXdr w a w'
  | .getTransaction txHash, w, a, w' => Reports w txHash a ∧ w' = w
  | .addConfirmJob _, w, _, w' => w' = w

/-- What happens besides: the network is done with a pending transaction. -/
inductive PaymentMove where
  | settled (hash : String) (outcome : OnChain)

def PaymentPlatform.Moves : PaymentMove → PaymentPlatform → PaymentPlatform → Prop
  | .settled hash outcome, w, w' => w.onChain hash = .pending ∧
    w' = { w with onChain := Function.update w.onChain hash outcome }

/-- The repository, the RPC server and the network. -/
def platform : Server Answer PaymentPlatform PaymentMove where
  serves := serves net
  moves := PaymentPlatform.Moves

/-! ## What a call knows -/

/-- What a call has been answered last. -/
inductive Place where
  | ready
  | read (transaction : TransactionRecord)
  | sent (transaction : TransactionRecord) (sendResult : SendResponse)
  | found (transaction : TransactionRecord) (status : TransactionStatus)

/-- The statuses of a transaction that has not gone through. -/
def PaymentStatus.givenUp : PaymentStatus → Bool
  | failed | dead => true
  | _ => false

/-- What a call may ask for. -/
def Place.allows (g : Place) : Request → Prop
  | .update writer id patch =>
    (∀ hash ∈ patch.txHash, ∃ transaction sendResult, g = .sent transaction sendResult ∧
      transaction.id = id ∧ sendResult.hash = hash) ∧
    (writer = .confirmSubmittedTransaction → ∀ status ∈ patch.status, status.givenUp = true →
      ∃ transaction xdr, g = .found transaction (.FAILED xdr) ∧ transaction.id = id)
  | .sendTransaction signedXdr =>
    ∃ transaction, g = .read transaction ∧ transaction.signedXdr = some signedXdr
  | .getTransaction txHash =>
    ∃ transaction, g = .read transaction ∧ transaction.txHash = some txHash
  | _ => True

/-- Where a reply leaves a call. -/
def Place.next (g : Place) : (q : Request) → Except PaymentError (Answer q) → Place
  | .now, _ => g
  | .findById _, .ok (some transaction) => .read transaction
  | .sendTransaction _, .ok (.result sendResult) =>
    match g with
    | .read transaction => .sent transaction sendResult
    | _ => .ready
  | .getTransaction _, .ok (.result status) =>
    match g with
    | .read transaction => .found transaction status
    | _ => .ready
  | _, _ => .ready

/-- How a call goes about its requests. -/
def conduct : Protocol Answer PaymentError Place where
  allowed := Place.allows
  answers _ _ := True
  next := Place.next

/-- The program conducts itself wherever it starts. -/
def Conducted {α : Type} (p : Program α) : Prop := ∀ g, p.Follows conduct g fun _ _ => True

section

variable {α β : Type} {p : Program α} {g : Place}

theorem conducted_pure (a : α) : Conducted (pure a) := fun _ => trivial

/-- A program that conducts itself may be followed by any other. -/
theorem Conducted.then (hp : p.Follows conduct g fun _ _ => True) {f : α → Program β}
    (hf : ∀ a, Conducted (f a)) : (p >>= f).Follows conduct g fun _ _ => True := by
  rw [follows_bind]
  refine hp.mono fun g' r _ => ?_
  cases r with
  | ok a => exact hf a g'
  | error e => exact trivial

theorem Conducted.bind (hp : Conducted p) {f : α → Program β} (hf : ∀ a, Conducted (f a)) :
    Conducted (p >>= f) := fun g => Conducted.then (hp g) hf

theorem Conducted.handle (hp : p.Follows conduct g fun _ _ => True)
    {h : PaymentError → Program α} (hh : ∀ e, Conducted (h e)) :
    (tryCatch p h).Follows conduct g fun _ _ => True := by
  rw [follows_handle]
  refine hp.mono fun g' r _ => ?_
  cases r with
  | ok a => exact trivial
  | error e => exact hh e g'

theorem follows_now {f : ℕ → Program β} {Q : Place → Except PaymentError β → Prop}
    (hf : ∀ time, (f time).Follows conduct g Q) : (now >>= f).Follows conduct g Q := by
  unfold now
  rw [follows_bind, follows_handle]
  exact ⟨trivial, fun time _ => hf time, fun _ => hf 0⟩

theorem follows_requireTransaction {transactionId : String} {f : TransactionRecord → Program β}
    (hf : ∀ transaction, (f transaction).Follows conduct (.read transaction) fun _ _ => True) :
    (requireTransaction transactionId >>= f).Follows conduct g fun _ _ => True := by
  unfold requireTransaction
  rw [follows_bind, follows_bind]
  refine ⟨trivial, fun found _ => ?_, fun _ => trivial⟩
  show (orThrow found _).Follows _ _ _
  rw [follows_orThrow]
  refine ⟨?_, fun _ => trivial⟩
  rintro transaction rfl
  exact hf transaction

theorem follows_update {writer : Writer} {id : String} {patch : TransactionPatch}
    (h : g.allows (.update writer id patch)) :
    (update writer id patch).Follows conduct g fun _ _ => True := by
  unfold update
  rw [follows_bind]
  refine ⟨h, fun updated _ => ?_, fun _ => trivial⟩
  show (orThrow updated _).Follows _ _ _
  rw [follows_orThrow]
  exact ⟨fun _ _ => trivial, fun _ => trivial⟩

end

/-- An update that sets no hash. -/
theorem Place.allows_update (g : Place) {writer : Writer} {id : String} {patch : TransactionPatch}
    (hhash : patch.txHash = none)
    (hstatus : writer = .confirmSubmittedTransaction → ∀ status ∈ patch.status,
      status.givenUp = true →
      ∃ transaction xdr, g = .found transaction (.FAILED xdr) ∧ transaction.id = id) :
    g.allows (.update writer id patch) := by
  refine ⟨fun hash hmem => ?_, hstatus⟩
  rw [hhash] at hmem
  cases hmem

/-! ## What the programs ask for -/

variable (svc : Service)

theorem conducted_giveUp (transaction : TransactionRecord) (attempts : Option ℕ)
    (message : String) : Conducted (giveUp transaction attempts message) := by
  intro g
  unfold giveUp
  refine follows_now fun time => Conducted.then (follows_update ?_) fun _ => conducted_pure _
  exact g.allows_update rfl fun h => nomatch h

theorem recordSubmission_follows (transaction : TransactionRecord) (attempts : ℕ)
    (sendResult : SendResponse) : (recordSubmission transaction attempts sendResult).Follows
      conduct (.sent transaction sendResult) fun _ _ => True := by
  have hsent : ∀ patch : TransactionPatch, patch.txHash = some sendResult.hash →
      (Place.sent transaction sendResult).allows
        (.update .submitQueuedTransaction transaction.id patch) := by
    refine fun patch hpatch => ⟨fun hash hmem => ?_, fun h => nomatch h⟩
    rw [hpatch] at hmem
    exact ⟨transaction, sendResult, rfl, rfl, Option.some.inj hmem⟩
  unfold recordSubmission
  cases sendResult.status with
  | TRY_AGAIN_LATER =>
    refine follows_now fun _ => Conducted.then (follows_update ?_) fun _ => conducted_pure _
    exact Place.allows_update _ rfl fun h => nomatch h
  | _ =>
    refine follows_now fun _ => Conducted.then (follows_update ?_) fun _ => conducted_pure _
    exact hsent _ rfl

theorem sendSigned_follows {transaction : TransactionRecord} {signedXdr : String}
    (hsigned : transaction.signedXdr = some signedXdr) (attempts : ℕ) :
    (sendSigned svc transaction signedXdr attempts).Follows conduct (.read transaction)
      fun _ _ => True := by
  unfold sendSigned
  rw [follows_bind]
  cases svc.fromXDR signedXdr with
  | error e => exact trivial
  | ok _ =>
    show (ask _ >>= _).Follows _ _ _
    rw [follows_bind]
    refine ⟨⟨transaction, rfl, hsigned⟩, fun fired _ => ?_, fun _ => trivial⟩
    cases fired with
    | circuitOpen => exact trivial
    | result sendResult => exact recordSubmission_follows transaction attempts sendResult

theorem conducted_submitQueuedTransaction (transactionId : String) :
    Conducted (submitQueuedTransaction svc transactionId) := by
  intro g
  unfold submitQueuedTransaction
  refine follows_requireTransaction fun transaction => ?_
  split
  · exact trivial
  split
  · exact trivial
  split
  · exact conducted_giveUp _ _ _ _
  · exact conducted_giveUp _ _ _ _
  · rename_i signedXdr _ hsigned
    split
    · exact conducted_giveUp _ _ _ _
    · exact Conducted.handle (sendSigned_follows svc hsigned _) fun e => conducted_giveUp _ _ _

theorem conducted_confirmSubmittedTransaction (transactionId : String) :
    Conducted (confirmSubmittedTransaction transactionId) := by
  intro g
  unfold confirmSubmittedTransaction
  refine follows_requireTransaction fun transaction => ?_
  split
  · exact trivial
  split
  · exact trivial
  · exact trivial
  · rename_i txHash _ hhash
    show (ask _ >>= _).Follows _ _ _
    rw [follows_bind]
    refine ⟨⟨transaction, rfl, hhash⟩, fun fired _ => ?_, fun _ => trivial⟩
    match fired with
    | .circuitOpen => exact trivial
    | .result .NOT_FOUND => exact trivial
    | .result .SUCCESS =>
      refine follows_now fun _ => follows_now fun _ => follows_update ?_
      refine Place.allows_update _ rfl fun _ status hstatus hgiven => ?_
      obtain rfl : PaymentStatus.confirmed = status := Option.some.inj hstatus
      cases hgiven
    | .result (.FAILED xdr) =>
      refine follows_now fun _ => follows_update ?_
      exact Place.allows_update _ rfl fun _ _ _ _ => ⟨transaction, xdr, rfl, rfl⟩

theorem conducted_pollCurrent (current : TransactionRecord) (polls : ℕ) :
    Conducted (pollCurrent current polls) := by
  induction polls generalizing current with
  | zero => exact conducted_pure current
  | succ polls ih =>
    refine Conducted.bind (conducted_confirmSubmittedTransaction current.id) fun refreshed => ?_
    split_ifs
    · exact conducted_pure refreshed
    · exact ih refreshed

theorem conducted_pollConfirmation (transactionId : String) :
    Conducted (pollConfirmation svc transactionId) := by
  intro g
  exact follows_requireTransaction fun transaction => conducted_pollCurrent transaction _ _

theorem conducted_handleFailedTransaction (transaction : TransactionRecord) :
    Conducted (handleFailedTransaction svc transaction) := by
  intro g
  unfold handleFailedTransaction
  dsimp only
  split_ifs
  · refine follows_now fun time => Conducted.then (follows_update ?_) fun _ => conducted_pure _
    exact g.allows_update rfl fun h => nomatch h
  · refine follows_now fun time => ?_
    split_ifs
    · exact trivial
    · refine follows_now fun time => Conducted.then (follows_update ?_) fun _ => conducted_pure _
      exact g.allows_update rfl fun h => nomatch h

theorem conducted_countingFailure (counts : PaymentWorkerResult)
    {body : Program PaymentWorkerResult} (hbody : Conducted body) :
    Conducted (countingFailure counts body) :=
  fun g => Conducted.handle (hbody g) fun _ => conducted_pure _

theorem conducted_processTransaction (transaction : TransactionRecord)
    (counts : PaymentWorkerResult) : Conducted (processTransaction svc transaction counts) := by
  refine conducted_countingFailure counts ?_
  split
  · refine Conducted.bind (conducted_handleFailedTransaction svc transaction) fun outcome => ?_
    cases outcome with
    | _ => exact conducted_pure _
  split
  · refine Conducted.bind (conducted_submitQueuedTransaction svc transaction.id) fun result => ?_
    split
    · refine conducted_countingFailure _ ?_
      dsimp only
      split
      · exact fun g => ⟨trivial, fun _ _ => trivial, fun _ => trivial⟩
      · exact conducted_pure _
    · exact conducted_pure _
  split
  · exact conducted_pure _
  · refine Conducted.bind (conducted_confirmSubmittedTransaction transaction.id)
      fun refreshed => ?_
    split_ifs
    · exact conducted_pure _
    · exact conducted_pure _
    · exact conducted_pure _

theorem conducted_processAll (pending : List TransactionRecord) (counts : PaymentWorkerResult) :
    Conducted (processAll svc pending counts) := by
  induction pending generalizing counts with
  | nil => exact conducted_pure counts
  | cons transaction pending ih =>
    exact Conducted.bind (conducted_processTransaction svc transaction counts) ih

theorem conducted_processBatch (limit : ℕ) : Conducted (processBatch svc limit) := by
  intro g
  unfold processBatch
  rw [follows_bind]
  exact ⟨trivial, fun pending _ => conducted_processAll svc pending _ _, fun _ => trivial⟩

theorem conducted_processJob (job : Job) : Conducted (processJob job) := by
  refine Conducted.bind (conducted_confirmSubmittedTransaction job.transactionId) fun tx g => ?_
  rw [follows_check]
  exact ⟨fun _ => trivial, fun _ => trivial⟩

theorem conducted_onFailed (job : Option Job) (err : PaymentError) :
    Conducted (onFailed job err) := by
  intro g
  unfold onFailed
  cases job with
  | none => exact trivial
  | some job =>
    dsimp only
    split_ifs
    · exact trivial
    · refine follows_now fun time => Conducted.then (follows_update ?_) fun _ => conducted_pure _
      exact g.allows_update rfl fun h => nomatch h

theorem conducted_reconcile (job : Job) : Conducted (reconcile job) :=
  fun g => Conducted.handle (conducted_processJob job g) fun err => conducted_onFailed _ err

end InverseArena.Backend.Payments
