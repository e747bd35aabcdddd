import InverseArena.Arena.Types
import InverseArena.Factory.Contract
import InverseArena.Library.Patterns
import InverseArena.Staking.Contract

/-!
# What users read of an error

`shared-d/utils/contract-error.ts` and `contract-error-registry.ts`: what is thrown becomes a
`ContractError`, and a panic of a contract is recognised in the text of the RPC server by its
number. The numbers of the contracts overlap, and the registry has one sentence for each.

Results:
* `parseContractError_panic`: the first panic in a text decides what is read.
* `panic_shown`: the errors of the other contracts are read as those of the arena.
-/

namespace InverseArena.Frontend

open Text

/-! ## `contract-error-registry.ts` -/

/-- `CONTRACT_PANIC_USER_MESSAGES`. -/
def CONTRACT_PANIC_USER_MESSAGES : ℕ → Option String
  | 1 => some "You do not have permission to perform this action."
  | 2 => some "Cannot cancel a game that has already started."
  | 3 => some "This arena has not been initialized yet."
  | 4 => some "This action cannot be done in the current round state."
  | 5 => some "The round has not started yet."
  | 6 => some "The grace period for this round has not elapsed yet."
  | 7 => some "Your revealed choice and salt do not match your commitment."
  | 8 => some "You have not submitted a commitment for this round."
  | 9 => some "You have already revealed your choice for this round."
  | 10 => some "This arena has already been initialized."
  | 11 => some "The game is not finished yet."
  | 12 => some "You have already claimed your prize."
  | 13 => some "You have been eliminated from this arena."
  | 14 => some "There is no pending admin transfer to accept."
  | 15 => some "The vault address provided is invalid."
  | 16 => some "The contract is paused. State-changing actions are temporarily disabled."
  | 17 => some "This action cannot be performed in the current arena state."
  | 18 => some "This arena has not been initialized yet."
  | 19 => some "Not enough players to start a round. At least 2 active players are required."
  | 20 => some "You have been banned from joining arenas."
  | 21 => some "You cannot join your own arena."
  | 22 => some "This arena is full. No more players can join."
  | 23 => some "Invalid player limits configured."
  | 24 => some
    "A reentrant call was detected. Please wait for the current operation to finish."
  | 25 => some "You have already claimed your refund."
  | 26 => some "You can only claim a refund when the arena has been cancelled."
  | 27 => some "You are not registered as a player in this arena."
  | 28 => some "The required deadline has not passed yet. Please wait."
  | 29 => some "You have already joined this arena."
  | 30 => some "The upgrade timelock has not elapsed yet. Please wait."
  | 31 => some "No pending upgrade was found. Propose an upgrade first."
  | 32 => some "The entry fee must be greater than zero."
  | 33 => some
    "The commitment phase has ended. You can no longer submit choices for this round."
  | 34 => some "Invalid round duration. Please check the duration parameter."
  | 35 => some "Vault deposit failed. The token transfer has been rolled back."
  | 100 => some "Stake amount does not meet the rules for creating a pool."
  | 101 => some "This token is not supported for pool creation."
  | _ => none

/-- `formatContractPanicMessage(code, knownMessage)`. -/
def formatContractPanicMessage (code : Number) (knownMessage : Option String) : Text :=
  let base := knownMessage.getD
    "The contract could not complete this action. See contract/ERRORS.md for code definitions."
  ofString base ++ ofString " (on-chain code " ++ code.toText ++ ofString ")"

/-- `CONTRACT_PANIC_USER_MESSAGES[code]`. -/
def knownMessage : Number → Option String
  | .finite q => if q.den = 1 then CONTRACT_PANIC_USER_MESSAGES q.num.toNat else none
  | .infinite _ => none

/-- `userMessageForContractPanicCode(code)`, for a code that is not negative. -/
def userMessageForContractPanicCode (code : Number) : Text :=
  formatContractPanicMessage code (knownMessage code)

/-! ## `contract-error.ts` -/

inductive ContractErrorCode where
  | VALIDATION_FAILED | ACCOUNT_NOT_FOUND | SIMULATION_FAILED | TRANSACTION_FAILED
  | TRANSACTION_TIMEOUT | USER_REJECTED | INSUFFICIENT_FUNDS | BAD_AUTH | CONFIG_MISSING
  | UNKNOWN
  deriving DecidableEq, Repr

/-- `DEFAULT_MESSAGES`. -/
def DEFAULT_MESSAGES : ContractErrorCode → String
  | .VALIDATION_FAILED => "Invalid input. Please check the values and try again."
  | .ACCOUNT_NOT_FOUND => "Account not found on network. Please fund it first."
  | .SIMULATION_FAILED => "Contract simulation failed. The transaction may not be valid."
  | .TRANSACTION_FAILED => "Transaction was rejected by the network."
  | .TRANSACTION_TIMEOUT => "Transaction timed out waiting for confirmation. Please try again."
  | .USER_REJECTED => "Transaction was cancelled by the user."
  | .INSUFFICIENT_FUNDS => "Insufficient balance to cover the transaction and fees."
  | .BAD_AUTH =>
    "Invalid or unauthorized transaction. Please check your wallet permissions."
  | .CONFIG_MISSING =>
    "Required configuration is missing. Please check your environment setup."
  | .UNKNOWN => "An unknown error occurred during the transaction."

/-- `ContractError`, but for the error that it wraps. -/
structure ContractError where
  code : ContractErrorCode
  message : Text
  fn : String
  hash : Option String
  deriving DecidableEq, Repr

/-- `new ContractError({ code, message, fn })`. -/
def contractError (code : ContractErrorCode) (message : Option Text) (fn : String) :
    ContractError :=
  ⟨code, message.getD (ofString (DEFAULT_MESSAGES code)), fn, none⟩

/-- An object that is thrown and is no `ContractError`, as far as it is read. -/
structure ThrownObject where
  /-- It is an `Error`. -/
  isError : Bool
  /-- `name`. -/
  name : Option Text
  /-- `String(message)`, if there is a `message`. -/
  message : Option Text
  /-- `message` is a text. -/
  messageIsText : Bool
  /-- `error`, if it is a text. -/
  error : Option Text
  /-- The messages of its `issues`. -/
  issues : Option (List Text)
  /-- `String(error)`. -/
  shown : Text
  deriving DecidableEq, Repr

/-- What can be thrown. -/
inductive ThrownValue where
  | contractError (e : ContractError)
  | object (o : ThrownObject)
  | text (t : Text)
  /-- Anything else, by `String(error ?? "")`. -/
  | value (shown : Text)
  deriving DecidableEq, Repr

/-- `extractMessage(error)`. -/
def extractMessage : ThrownValue → Text
  | .contractError e => e.message
  | .object o => if o.isError then o.message.getD [] else o.message.getD o.shown
  | .text t => t
  | .value shown => shown

/-- `isZodError(error)`. -/
def isZodError : ThrownValue → Bool
  | .object o => o.name = some (ofString "ZodError") && o.issues.isSome
  | _ => false

/-- `isSimulationError(error)`. -/
def isSimulationError : ThrownValue → Bool
  | .object o => o.error.isSome || (o.messageIsText && o.message.any fun message =>
      message.includes "HostError" || message.includes "Error(Contract" ||
        message.includes "Error(WasmVm")
  | _ => false

/-- `/Error\(Contract,\s*#(\d+)\)/`. -/
def contractMatch : Text → Option Text :=
  firstMatch (matchGroup (ofString "Error(Contract,") (ofString "#") isDigit)

/-- `/Error\(WasmVm,\s*(\w+)\)/`. -/
def wasmMatch : Text → Option Text :=
  firstMatch (matchGroup (ofString "Error(WasmVm,") [] isWord)

/-- `parseHostError(raw)`. -/
def parseHostError (raw : Text) : Text :=
  match contractMatch raw with
  | some digits => userMessageForContractPanicCode (.ofRat (value digits))
  | none =>
    match wasmMatch raw with
    | some group => ofString "WASM VM error: " ++ group
    | none =>
      if raw.includes "Budget" || raw.includes "budget" then
        ofString "Transaction exceeded resource budget limits"
      else if raw.includes "Storage" || raw.includes "storage" then
        ofString "Contract storage access error"
      else if raw.length > 200 then raw.take 200 ++ ofString "..."
      else raw

/-- `extractSimulationDetail(error)`. -/
def extractSimulationDetail : ThrownValue → Option Text
  | .object o =>
    match o.error with
    | some raw => some (parseHostError raw)
    | none =>
      let msg := extractMessage (.object o)
      if msg.includes "Error(Contract" || msg.includes "HostError" then some (parseHostError msg)
      else none
  | _ => none

/-- A text that is not empty. -/
def nonEmpty : Text → Option Text
  | [] => none
  | t => some t

/-- `messages.join("; ")`. -/
def joinIssues (messages : List Text) : Text := List.intercalate (ofString "; ") messages

/-- `parseContractError(error, fn)`. -/
def parseContractError (error : ThrownValue) (fn : String) : ContractError :=
  match error with
  | .contractError e => e
  | error =>
    let msg := extractMessage error
    if isSimulationError error || msg.includes "simulation" then
      contractError .SIMULATION_FAILED (((extractSimulationDetail error).bind nonEmpty).map
        (ofString "Contract simulation failed: " ++ ·)) fn
    else if msg.includes "User rejected" || msg.includes "user cancel" then
      contractError .USER_REJECTED none fn
    else if msg.includes "op_underfunded" || msg.includes "insufficient" then
      contractError .INSUFFICIENT_FUNDS none fn
    else if msg.includes "tx_bad_auth" then contractError .BAD_AUTH none fn
    else if msg.includes "tx_too_late" then contractError .TRANSACTION_TIMEOUT none fn
    else if msg.includes "Account not found" || msg.includes "status 404" then
      contractError .ACCOUNT_NOT_FOUND none fn
    else if msg.includes "Transaction failed" || msg.includes "validation failed" then
      contractError .TRANSACTION_FAILED (some msg) fn
    else if isZodError error then
      let issues := match error with
        | .object o => o.issues.getD []
        | _ => []
      contractError .VALIDATION_FAILED
        (some (ofString "Validation failed: " ++ joinIssues issues)) fn
    else contractError .UNKNOWN (nonEmpty msg) fn

/-! ## Panics -/

/-- The `n`-th error of a contract, as the host writes it. -/
def panicText (n : ℕ) : Text := ofString "Error(Contract, #" ++ numeral n ++ ofString ")"

/-- The object has this text of the RPC server, in one of the two shapes. -/
def ThrownObject.Carries (o : ThrownObject) (raw : Text) : Prop :=
  o.error = some raw ∨ o.error = none ∧ o.message = some raw ∧ o.messageIsText = true

instance (o : ThrownObject) (raw : Text) : Decidable (o.Carries raw) :=
  inferInstanceAs (Decidable (_ ∨ _))

theorem head_panic : ofString "Error(Contract," = 0x45 :: ofString "rror(Contract," := by decide

theorem panicText_append (n : ℕ) (after : Text) : panicText n ++ after =
    ofString "Error(Contract," ++ ([0x20] ++ (ofString "#" ++ (numeral n ++ 0x29 :: after))) := by
  have hopen : ofString "Error(Contract, #" =
      ofString "Error(Contract," ++ ([0x20] ++ ofString "#") := by decide
  have hclose : ofString ")" = [0x29] := by decide
  unfold panicText
  rw [hopen, hclose]
  simp only [List.append_assoc, List.cons_append, List.nil_append]

/-- The first panic in a text is the one that is found. -/
theorem contractMatch_panic {before after : Text} {n : ℕ}
    (hbefore : ¬ ofString "Error(Contract," <:+: before) :
    contractMatch (before ++ (panicText n ++ after)) = some (numeral n) := by
  have hpass : ∀ s, s ≠ [] → s <:+ before → matchGroup (ofString "Error(Contract,")
      (ofString "#") isDigit (s ++ (panicText n ++ after)) = none := by
    intro s hs hsuffix
    refine matchGroup_of_not_prefix ?_
    have hprefix : ofString "Error(Contract," <+: panicText n ++ after := by
      rw [panicText_append]
      exact List.prefix_append _ _
    rw [head_panic] at hbefore hprefix ⊢
    exact not_prefix_of_border (by decide) hbefore hs hsuffix hprefix
  unfold contractMatch
  rw [firstMatch_append hpass, panicText_append]
  refine firstMatch_of_match (matchGroup_eq (by decide) ?_ (numeral_ne_nil n)
    (fun c hc => isDigit_numeral hc) (by decide))
  have hsharp : ofString "#" = [0x23] := by decide
  intro c hc
  rw [hsharp] at hc
  obtain rfl : 0x23 = c := Option.some.inj hc
  decide

theorem parseHostError_panic {before after : Text} {n : ℕ}
    (hbefore : ¬ ofString "Error(Contract," <:+: before) (hn : n < 2 ^ 53) :
    parseHostError (before ++ (panicText n ++ after)) =
      formatContractPanicMessage (.finite n) (CONTRACT_PANIC_USER_MESSAGES n) := by
  unfold parseHostError
  rw [contractMatch_panic hbefore]
  dsimp only
  rw [value_numeral, Number.ofRat_natCast hn]
  rfl

/-- What is made of a text with a panic depends on the number of the first one alone. -/
theorem parseContractError_panic {before after : Text} {n : ℕ} {o : ThrownObject}
    (hbefore : ¬ ofString "Error(Contract," <:+: before) (hn : n < 2 ^ 53)
    (ho : o.Carries (before ++ (panicText n ++ after))) (fn : String) :
    parseContractError (.object o) fn = contractError .SIMULATION_FAILED
      (some (ofString "Contract simulation failed: " ++
        formatContractPanicMessage (.finite n) (CONTRACT_PANIC_USER_MESSAGES n))) fn := by
  have hdetail : extractSimulationDetail (.object o) =
      some (formatContractPanicMessage (.finite n) (CONTRACT_PANIC_USER_MESSAGES n)) ∧
      isSimulationError (.object o) = true := by
    have hcontract : (before ++ (panicText n ++ after)).includes "Error(Contract" = true := by
      have hhead : ofString "Error(Contract" <:+: ofString "Error(Contract," := by decide
      refine decide_eq_true (hhead.trans ?_)
      rw [panicText_append]
      exact (List.prefix_append _ _).isInfix.trans (List.suffix_append _ _).isInfix
    obtain herror | ⟨herror, hmessage, htext⟩ := ho
    · simp only [extractSimulationDetail, isSimulationError, herror, Option.isSome_some,
        Bool.true_or, and_true]
      rw [parseHostError_panic hbefore hn]
    · have hmsg : extractMessage (.object o) = before ++ (panicText n ++ after) := by
        simp only [extractMessage, hmessage, Option.getD_some, ite_self]
      simp only [extractSimulationDetail, isSimulationError, herror, hmsg, hmessage, htext,
        hcontract, Bool.true_or, Bool.or_true, if_true, Option.any_some, Bool.and_true, and_true]
      rw [parseHostError_panic hbefore hn]
  have hne : nonEmpty (formatContractPanicMessage (.finite n) (CONTRACT_PANIC_USER_MESSAGES n)) =
      some (formatContractPanicMessage (.finite n) (CONTRACT_PANIC_USER_MESSAGES n)) := by
    have hclose : ofString ")" ≠ [] := by decide
    obtain ⟨c, t, ht⟩ := List.exists_cons_of_ne_nil (List.append_ne_nil_of_right_ne_nil
      (ofString ((CONTRACT_PANIC_USER_MESSAGES n).getD _) ++ ofString " (on-chain code " ++
        (Number.finite (n : ℚ)).toText) hclose)
    unfold formatContractPanicMessage
    rw [ht]
    rfl
  unfold parseContractError
  dsimp only
  rw [hdetail.1, hdetail.2, Bool.true_or, if_pos rfl, Option.bind_some, hne]
  rfl

/-! ## Whose error it is -/

/-- An error of a contract that the pages call. -/
inductive Panic where
  | arena (e : Arena.ArenaError)
  | factory (e : Factory.FactoryError)
  | staking (e : Staking.StakingError)
  deriving DecidableEq, Repr

/-- The number of the error; the enumerations count from 1. -/
def Panic.number : Panic → ℕ
  | arena e => e.ctorIdx + 1
  | factory e => e.ctorIdx + 1
  | staking e => e.ctorIdx + 1

/-- The arena has an error of every number that the other contracts use, and each has its
    sentence in the registry. -/
theorem exists_arenaError (p : Panic) : ∃ e, (Panic.arena e).number = p.number ∧
    (CONTRACT_PANIC_USER_MESSAGES (Panic.arena e).number).isSome = true ∧ p.number < 2 ^ 53 := by
  cases p with
  | arena e =>
    refine ⟨e, rfl, ?_⟩
    cases e <;> decide
  | factory e =>
    refine ⟨.ofNat e.ctorIdx, ?_⟩
    cases e <;> decide
  | staking e =>
    refine ⟨.ofNat e.ctorIdx, ?_⟩
    cases e <;> decide

/-- The errors of the factory and of the staking contract are read as those of the arena, with
    whatever text around them; only the number tells them apart. -/
theorem panic_shown {p : Panic} {before after : Text} {o : ThrownObject}
    (hbefore : ¬ ofString "Error(Contract," <:+: before)
    (ho : o.Carries (before ++ (panicText p.number ++ after))) (fn : String) :
    ∃ e sentence, (Panic.arena e).number = p.number ∧
      CONTRACT_PANIC_USER_MESSAGES (Panic.arena e).number = some sentence ∧
      parseContractError (.object o) fn = ⟨.SIMULATION_FAILED,
        ofString "Contract simulation failed: " ++ (ofString sentence ++
          ofString " (on-chain code " ++ numeral p.number ++ ofString ")"), fn, none⟩ := by
  obtain ⟨e, he, hsentence, hlt⟩ := exists_arenaError p
  obtain ⟨sentence, hsentence⟩ := Option.isSome_iff_exists.mp hsentence
  refine ⟨e, sentence, he, hsentence, ?_⟩
  rw [parseContractError_panic hbefore hlt ho, ← he, hsentence]
  unfold formatContractPanicMessage
  rw [he, Number.toText_natCast hlt]
  rfl

/-- Staking too little is read as a reveal that does not match. -/
theorem panic_shown_staking : ∃ e sentence,
    (Panic.arena e).number = (Panic.staking .BelowMinimumInitialStake).number ∧
      CONTRACT_PANIC_USER_MESSAGES (Panic.arena e).number = some sentence ∧
      parseContractError (.object ⟨false, none, none, false,
          some (ofString "HostError: Error(Contract, #7)\n\nEvent log"), none, []⟩)
        "buildStakeProtocolTransaction" = ⟨.SIMULATION_FAILED,
        ofString "Contract simulation failed: " ++ (ofString sentence ++
          ofString " (on-chain code " ++ numeral 7 ++ ofString ")"),
        "buildStakeProtocolTransaction", none⟩ :=
  by
  have hbefore : ¬ ofString "Error(Contract," <:+: ofString "HostError: " := by decide
  have ho : ThrownObject.Carries ⟨false, none, none, false,
      some (ofString "HostError: Error(Contract, #7)\n\nEvent log"), none, []⟩
      (ofString "HostError: " ++ (panicText (Panic.staking .BelowMinimumInitialStake).number ++
        ofString "\n\nEvent log")) := by decide
  exact panic_shown hbefore ho _

end InverseArena.Frontend
