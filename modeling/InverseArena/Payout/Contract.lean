import InverseArena.Host.Types
import InverseArena.Library.MachineInt

/-!
# The payout contract

Model of `contract/payout/src` (lib.rs, storage.rs, types.rs). The token is any
contract: what it does when it is called is a `Program`, which may change the
network outside the payout contract, call the payout contract back, and trap.
The host of today refuses such calls back; here they are allowed. A failing
call is rolled back, so that a caller that catches the failure goes on in the
state from before the call. Entry expiry and the contract's events are not
modelled, and an executed `upgrade` ends the life of this code.
-/

namespace InverseArena.Payout

open Host MachineInt

/-- `MAX_BATCH_SIZE`. -/
def maxBatchSize : ℕ := 50

/-- `PayoutError`. -/
inductive PayoutError where
  | NotInitialised | AlreadyInitialised | Unauthorized | AlreadyPaid | InvalidAmount | EmptyBatch
  | InsufficientBalance | DuplicateRecipient | BatchTooLarge
  deriving DecidableEq, Repr

/-- The contract's storage: `Admin`, `Token`, `Paid(payout_id)`. -/
structure PayoutStorage where
  admin : Option Address
  token : Option Address
  paid : ℕ → Option Bool

/-- The storage of a freshly deployed contract. -/
def PayoutStorage.fresh : PayoutStorage := ⟨none, none, fun _ => none⟩

namespace PayoutStorage

/-- `has_admin()`. -/
def hasAdmin (s : PayoutStorage) : Bool := s.admin.isSome

/-- `get_admin()`. -/
def getAdmin (s : PayoutStorage) : Result PayoutError Address := okOr s.admin .NotInitialised

/-- `get_token()`. -/
def getToken (s : PayoutStorage) : Result PayoutError Address := okOr s.token .NotInitialised

/-- `is_paid(payout_id)`. -/
def isPaid (s : PayoutStorage) (payoutId : ℕ) : Bool := (s.paid payoutId).isSome

/-- `mark_paid(payout_id)`. -/
def markPaid (s : PayoutStorage) (payoutId : ℕ) : PayoutStorage :=
  { s with paid := Function.update s.paid payoutId (some true) }

theorem isPaid_markPaid (s : PayoutStorage) (payoutId i : ℕ) :
    (s.markPaid payoutId).isPaid i = if i = payoutId then true else s.isPaid i := by
  unfold isPaid markPaid
  by_cases h : i = payoutId
  · subst h; simp
  · simp [h]

end PayoutStorage

/-- A call of an entry point. -/
inductive PayoutCall where
  | initializePayout (admin token : Address)
  | distributeWinnings (payoutId : ℕ) (winner : Address) (amount : ℤ)
  | distributeBatch (payoutId : ℕ) (recipients : List (Address × ℤ))
  deriving DecidableEq, Repr

/-- What a contract other than the payout contract does, over a state `N` of
    everything outside the latter. -/
inductive Program (N : Type) where
  /-- Ends in the state `net` with a result. -/
  | done (net : N) (answer : ℤ)
  | trap
  /-- Calls the payout contract, and goes on whether the call fails or not. -/
  | tryCall (net : N) (auths : List Address) (call : PayoutCall) (next : Bool → N → Program N)

/-- The code of the token contracts. -/
structure TokenCode (N : Type) where
  /-- The payout contract: `env.current_contract_address()`. -/
  here : Address
  /-- `TokenClient::new(env, token).balance(account)`. -/
  balance : (token account : Address) → N → Program N
  /-- `TokenClient::new(env, token).transfer(from, to, amount)`. -/
  transfer : (token sender recipient : Address) → ℤ → N → Program N

/-- A distribution that returned without an error. -/
structure Executed where
  payoutId : ℕ
  payments : List (Address × ℤ)
  deriving DecidableEq, Repr

/-- The contract's storage and everything outside it. `moved` records the
    transfers the contract has made, oldest first, and `executed` its
    distributions, newest first; both are rolled back with the call. -/
structure PayoutWorld (N : Type) where
  storage : PayoutStorage
  net : N
  moved : List (Address × ℤ)
  executed : List Executed

/-- A freshly deployed contract. -/
def PayoutWorld.fresh {N : Type} (net : N) : PayoutWorld N := ⟨.fresh, net, [], []⟩

section Calls

variable {N : Type} (code : TokenCode N)
  (reenter : List Address → PayoutCall → PayoutWorld N → Result PayoutError (PayoutWorld N))

/-- Runs a program whose calls of the payout contract are answered by `reenter`. -/
def runProgram : Program N → PayoutWorld N → Result PayoutError (ℤ × PayoutWorld N)
  | .done net answer, w => pure (answer, { w with net := net })
  | .trap, _ => .error .trap
  | .tryCall net auths call next, w =>
    match reenter auths call { w with net := net } with
    | .ok w' => runProgram (next true w'.net) w'
    | .error _ => runProgram (next false net) { w with net := net }

/-- `client.balance(&env.current_contract_address())`. -/
def tokenBalance (token : Address) (w : PayoutWorld N) :
    Result PayoutError (ℤ × PayoutWorld N) :=
  runProgram reenter (code.balance token code.here w.net) w

/-- `client.transfer(&env.current_contract_address(), recipient, amount)`. -/
def tokenTransfer (token recipient : Address) (amount : ℤ) (w : PayoutWorld N) :
    Result PayoutError (PayoutWorld N) := do
  let (_, w) ← runProgram reenter (code.transfer token code.here recipient amount w.net) w
  pure { w with moved := w.moved ++ [(recipient, amount)] }

/-- `initialize(admin, token)`. -/
def initializePayout (auths : List Address) (admin token : Address) (w : PayoutWorld N) :
    Result PayoutError (PayoutWorld N) := do
  requireAuth auths admin
  check (w.storage.hasAdmin = false) .AlreadyInitialised
  pure { w with storage := { w.storage with admin := some admin, token := some token } }

/-- `distribute_winnings(payout_id, winner, amount)`. -/
def distributeWinnings (auths : List Address) (payoutId : ℕ) (winner : Address) (amount : ℤ)
    (w : PayoutWorld N) : Result PayoutError (PayoutWorld N) := do
  let admin ← w.storage.getAdmin
  requireAuth auths admin
  check (¬ amount ≤ 0) .InvalidAmount
  check (w.storage.isPaid payoutId = false) .AlreadyPaid
  -- marked paid before the token is called
  let w := { w with storage := w.storage.markPaid payoutId }
  let token ← w.storage.getToken
  let (contractBalance, w) ← tokenBalance code reenter token w
  check (¬ amount > contractBalance) .InsufficientBalance
  tokenTransfer code reenter token winner amount w

/-- The validation loop of `distribute_batch`: the total of the amounts. -/
def validateRecipients : List (Address × ℤ) → List Address → ℤ → Result PayoutError ℤ
  | [], _, totalAmount => pure totalAmount
  | (recipient, amount) :: rest, seen, totalAmount => do
    check (¬ amount ≤ 0) .InvalidAmount
    check (recipient ∉ seen) .DuplicateRecipient
    validateRecipients rest (seen ++ [recipient]) (satAddI128 totalAmount amount)

/-- The transfer loop of `distribute_batch`. -/
def payRecipients (token : Address) :
    List (Address × ℤ) → PayoutWorld N → Result PayoutError (PayoutWorld N)
  | [], w => pure w
  | (recipient, amount) :: rest, w => do
    let w ← tokenTransfer code reenter token recipient amount w
    payRecipients token rest w

/-- `distribute_batch(payout_id, recipients)`. -/
def distributeBatch (auths : List Address) (payoutId : ℕ) (recipients : List (Address × ℤ))
    (w : PayoutWorld N) : Result PayoutError (PayoutWorld N) := do
  let admin ← w.storage.getAdmin
  requireAuth auths admin
  check (recipients.isEmpty = false) .EmptyBatch
  check (¬ recipients.length > maxBatchSize) .BatchTooLarge
  let totalAmount ← validateRecipients recipients [] 0
  let token ← w.storage.getToken
  let (contractBalance, w) ← tokenBalance code reenter token w
  check (¬ totalAmount > contractBalance) .InsufficientBalance
  check (w.storage.isPaid payoutId = false) .AlreadyPaid
  let w := { w with storage := w.storage.markPaid payoutId }
  payRecipients code reenter token recipients w

/-- The call `call` authorized by `auths`. -/
def exec (auths : List Address) : PayoutCall → PayoutWorld N → Result PayoutError (PayoutWorld N)
  | .initializePayout admin token => initializePayout auths admin token
  | .distributeWinnings payoutId winner amount =>
    distributeWinnings code reenter auths payoutId winner amount
  | .distributeBatch payoutId recipients => distributeBatch code reenter auths payoutId recipients

end Calls

/-- What a call leaves in the record of distributions. -/
def PayoutCall.receipt : PayoutCall → List Executed
  | .initializePayout _ _ => []
  | .distributeWinnings payoutId winner amount => [⟨payoutId, [(winner, amount)]⟩]
  | .distributeBatch payoutId recipients => [⟨payoutId, recipients⟩]

section Runs

variable {N : Type} (code : TokenCode N)

/-- A call of the payout contract, in which calls back may be nested `depth`
    deep. -/
def perform : ℕ → List Address → PayoutCall → PayoutWorld N → Result PayoutError (PayoutWorld N)
  | 0, _, _, _ => .error .trap
  | depth + 1, auths, call, w => do
    let w ← exec code (perform depth) auths call w
    pure { w with executed := call.receipt ++ w.executed }

/-- The state after a transaction: that from before it if it failed. -/
def settle {E : Type} (w : PayoutWorld N) (r : Except E (PayoutWorld N)) : PayoutWorld N :=
  match r with
  | .ok w' => w'
  | .error _ => w

/-- A transaction: a call of the payout contract, or a program of another
    contract. -/
inductive PayoutAction (N : Type) where
  | call (depth : ℕ) (auths : List Address) (call : PayoutCall)
  | program (depth : ℕ) (program : N → Program N)

/-- One transaction, which may fail. -/
inductive PayoutStep : PayoutWorld N → PayoutAction N → PayoutWorld N → Prop
  | call {w depth auths c} :
      PayoutStep w (.call depth auths c) (settle w (perform code depth auths c w))
  | program {w depth p} : PayoutStep w (.program depth p)
      (settle w ((runProgram (perform code depth) (p w.net) w).map (·.2)))

end Runs

end InverseArena.Payout
