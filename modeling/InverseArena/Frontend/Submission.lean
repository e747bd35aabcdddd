import InverseArena.Backend.JsString
import InverseArena.Backend.Payments.Platform
import InverseArena.Frontend.ContractErrors
import InverseArena.Library.Replies

/-!
# Submitting a signed transaction

`submitSignedTransaction`, `checkTransactionOnHorizon` and `reconcilePendingTransaction` of
`shared-d/utils/stellar-transactions.ts`, as programs that await the RPC server and Horizon.
Both servers are truthful, or do not answer: a transaction is reported as succeeded or failed
only after a ledger has included it so, and may be reported as not found at any time.

Results:
* `verdict_of_run`: what calls tell about transactions is true of the ledger, however the calls
  are interleaved with each other and with the ledger.
* `verdict_of_run_duplicate`: a submission that says that its transaction was rejected may be of
  one that succeeds.
-/

namespace InverseArena.Frontend

open Async Transition Text
open Backend.Payments (Network OnChain)
open Backend (SendResponse SendStatus TransactionStatus)

/-! ## What is requested -/

/-- An answer of Horizon: the status, and `successful` of the document, unless reading it
    throws. -/
structure HorizonResponse where
  status : ℕ
  successful : Except ThrownValue (Option Bool)

/-- `res.ok`. -/
def HorizonResponse.ok (res : HorizonResponse) : Bool := 200 ≤ res.status && res.status < 300

inductive PageRequest where
  | sendTransaction (signedXdr : String)
  | getTransaction (hash : String)
  | fetch (url : String)

/-- What a request is answered. -/
abbrev PageAnswer : PageRequest → Type
  | .sendTransaction _ => SendResponse
  | .getTransaction _ => TransactionStatus
  | .fetch _ => HorizonResponse

abbrev PageProgram := Async PageAnswer ThrownValue

def ask (q : PageRequest) : PageProgram (PageAnswer q) := request q

/-! ## `submitSignedTransaction` -/

/-- The libraries: `TransactionBuilder.fromXDR`, which may throw, and the `message` of a
    `ZodError` with one issue. -/
structure Libraries where
  fromXDR : String → Except ThrownValue Unit
  zodMessage : String → Text

/-- A `ZodError` with one issue. -/
def Libraries.zodError (lib : Libraries) (issue : String) : ThrownValue :=
  .object ⟨true, some (ofString "ZodError"), some (lib.zodMessage issue), true, none,
    some [ofString issue], lib.zodMessage issue⟩

/-- `SignedXdrSchema.parse(signedXdr)`. -/
def parseSignedXdr (lib : Libraries) (signedXdr : String) : Except ThrownValue String :=
  let trimmed := Backend.trim signedXdr.toList
  if Backend.jsLength trimmed < 20 then .error (lib.zodError "Signed XDR is too short")
  else if 200000 < Backend.jsLength trimmed then
    .error (lib.zodError "Signed XDR is too large")
  else .ok (String.ofList trimmed)

/-- `TRANSACTION_CONFIG.MAX_RETRIES`, of `getSubmitRetryConfig()`. -/
def MAX_RETRIES : ℕ := 10

/-- The loop of `submitSignedTransaction`; `getTxResponse` is the last answer. A failure to fetch
    is ignored. -/
def pollTransaction (hash : String) :
    ℕ → Option TransactionStatus → PageProgram (Option TransactionStatus)
  | 0, getTxResponse => pure getTxResponse
  | retries + 1, getTxResponse => do
    let fetched ← tryCatch (some <$> ask (.getTransaction hash)) fun _ => pure none
    match fetched with
    | none => pollTransaction hash retries getTxResponse
    | some .NOT_FOUND => pollTransaction hash retries (some .NOT_FOUND)
    | some status => pure (some status)

/-- `${response.status}`. -/
def statusText : SendStatus → String
  | .PENDING => "PENDING"
  | .DUPLICATE => "DUPLICATE"
  | .ERROR => "ERROR"
  | .TRY_AGAIN_LATER => "TRY_AGAIN_LATER"

/-- The error for a transaction that is not pending once it is sent. -/
def rejectedError (status : SendStatus) : ContractError where
  code := .TRANSACTION_FAILED
  message := ofString ("Transaction rejected by network: " ++ statusText status)
  fn := "submitSignedTransaction"
  hash := none

/-- The error for a transaction that is not found. -/
def timeoutError (hash : String) : ContractError where
  code := .TRANSACTION_TIMEOUT
  message := ofString ("Transaction status could not be confirmed before timing out. " ++
    "It may still succeed — check status manually with hash: " ++ hash)
  fn := "submitSignedTransaction"
  hash := some hash

/-- The error for a transaction that has failed. -/
def failedError (hash : String) : ContractError where
  code := .TRANSACTION_FAILED
  message := ofString "Transaction confirmation failed: FAILED"
  fn := "submitSignedTransaction"
  hash := some hash

/-- From the submission on. -/
def sendAndPoll (signedXdr : String) : PageProgram TransactionStatus := do
  let response ← ask (.sendTransaction signedXdr)
  check (response.status = .PENDING) (.contractError (rejectedError response.status))
  let getTxResponse ← pollTransaction response.hash MAX_RETRIES none
  match getTxResponse with
  | none | some .NOT_FOUND => throw (.contractError (timeoutError response.hash))
  | some (.FAILED _) => throw (.contractError (failedError response.hash))
  | some .SUCCESS => pure .SUCCESS

/-- What a signed text must pass before it is sent. -/
def validateSigned (lib : Libraries) (signedXdr : String) : Except ThrownValue String := do
  let validatedSignedXdr ← parseSignedXdr lib signedXdr
  lib.fromXDR validatedSignedXdr
  pure validatedSignedXdr

def submitSignedTransaction (lib : Libraries) (signedXdr : String) :
    PageProgram TransactionStatus :=
  tryCatch (done (validateSigned lib signedXdr) >>= sendAndPoll)
    fun error => throw (.contractError (parseContractError error "submitSignedTransaction"))

/-! ## `reconcilePendingTransaction` -/

inductive HorizonTransactionStatus where
  | SUCCESS | FAILED | NOT_FOUND
  deriving DecidableEq, Repr

structure HorizonTransactionResult where
  hash : String
  status : HorizonTransactionStatus
  deriving DecidableEq, Repr

/-- `horizonBaseUrl.replace(/\/+$/, "")`. -/
def trimSlashes (horizonBaseUrl : String) : List Char :=
  (horizonBaseUrl.toList.reverse.dropWhile (· = '/')).reverse

/-- Where Horizon has a transaction. -/
def transactionUrl (horizonBaseUrl hash : String) : String :=
  String.ofList (trimSlashes horizonBaseUrl) ++ "/transactions/" ++ hash

/-- The error for a status that is neither `ok` nor 404. -/
def lookupError (res : HorizonResponse) (hash : String) : ContractError where
  code := .UNKNOWN
  message := ofString ("Horizon transaction lookup failed: " ++ toString res.status)
  fn := "checkTransactionOnHorizon"
  hash := some hash

def checkTransactionOnHorizon (hash horizonBaseUrl : String) :
    PageProgram HorizonTransactionResult := do
  let res ← ask (.fetch (transactionUrl horizonBaseUrl hash))
  if res.status = 404 then pure ⟨hash, .NOT_FOUND⟩
  else do
    check (res.ok = true) (.contractError (lookupError res hash))
    let successful ← done res.successful
    pure ⟨hash, if successful = some true then .SUCCESS else .FAILED⟩

/-- The loop of `reconcilePendingTransaction`, for so many more attempts. -/
def reconcileAttempts (hash horizonBaseUrl : String) : ℕ → PageProgram HorizonTransactionResult
  | 0 => pure ⟨hash, .NOT_FOUND⟩
  | attempts + 1 => do
    let result ← tryCatch (checkTransactionOnHorizon hash horizonBaseUrl)
      fun _ => pure ⟨hash, .NOT_FOUND⟩
    if result.status ≠ .NOT_FOUND then pure result
    else reconcileAttempts hash horizonBaseUrl attempts

/-- `reconcilePendingTransaction(hash, { horizonBaseUrl, maxAttempts })`, for `HORIZON_URL`. -/
def reconcilePendingTransaction (HORIZON_URL hash : String) (horizonBaseUrl : Option String)
    (maxAttempts : Option ℕ) : PageProgram HorizonTransactionResult :=
  reconcileAttempts hash (horizonBaseUrl.getD HORIZON_URL) (maxAttempts.getD 12)

/-! ## Calls -/

/-- What the pages call. -/
inductive PageCall where
  | submit (signedXdr : String)
  | reconcile (hash : String) (horizonBaseUrl : Option String) (maxAttempts : Option ℕ)

/-- What a call returns. -/
inductive PageResult where
  | confirmed (status : TransactionStatus)
  | reconciled (result : HorizonTransactionResult)

def PageCall.program (lib : Libraries) (HORIZON_URL : String) : PageCall → PageProgram PageResult
  | submit signedXdr => .confirmed <$> submitSignedTransaction lib signedXdr
  | reconcile hash horizonBaseUrl maxAttempts =>
    .reconciled <$> reconcilePendingTransaction HORIZON_URL hash horizonBaseUrl maxAttempts

/-! ## The ledger -/

/-- What the network has made of transactions, by their hashes. -/
abbrev Ledger := String → OnChain

/-- What a ledger has included is final. -/
def Ledger.Later (s s' : Ledger) : Prop :=
  ∀ hash, s hash = .succeeded ∨ s hash = .failed → s' hash = s hash

/-- A transaction reaches the network. -/
def Ledger.deliver (s : Ledger) (hash : String) : Ledger :=
  if s hash = .absent then Function.update s hash .pending else s

/-- The answers to a submission and what they do. -/
def Sends (net : Network) (signedXdr : String) (s : Ledger) (response : SendResponse)
    (s' : Ledger) : Prop :=
  response.hash = net.hash signedXdr ∧
    match response.status with
    | .PENDING => s' = s.deliver (net.hash signedXdr)
    | .DUPLICATE => s (net.hash signedXdr) ≠ .absent ∧ s' = s
    | .ERROR => s' = s
    | .TRY_AGAIN_LATER => s' = s

/-- What an answer of the RPC server says. -/
def Reports (onChain : OnChain) : TransactionStatus → Prop
  | .SUCCESS => onChain = .succeeded
  | .FAILED _ => onChain = .failed
  | .NOT_FOUND => True

/-- What a document of Horizon says. -/
def HorizonResponse.Reports (res : HorizonResponse) (onChain : OnChain) : Prop :=
  res.ok = true → ∀ successful, res.successful = .ok successful →
    onChain = if successful = some true then .succeeded else .failed

/-- What serving a request does; other addresses may answer anything. -/
def pageServes (net : Network) (HORIZON_URL : String) (_ : ℕ) :
    (q : PageRequest) → Ledger → PageAnswer q → Ledger → Prop
  | .sendTransaction signedXdr, s, response, s' => Sends net signedXdr s response s'
  | .getTransaction hash, s, status, s' => Reports (s hash) status ∧ s' = s
  | .fetch url, s, res, s' =>
    (∀ hash, url = transactionUrl HORIZON_URL hash → res.Reports (s hash)) ∧ s' = s

/-- What happens besides: others send transactions, and the network is done with a pending one. -/
inductive LedgerMove where
  | submitted (hash : String)
  | settled (hash : String) (outcome : OnChain)

def Ledger.Moves : LedgerMove → Ledger → Ledger → Prop
  | .submitted hash, s, s' => s' = s.deliver hash
  | .settled hash outcome, s, s' => s hash = .pending ∧ s' = Function.update s hash outcome

/-- The RPC server, Horizon and the network. -/
def publicNetwork (net : Network) (HORIZON_URL : String) : Server PageAnswer Ledger LedgerMove where
  serves := pageServes net HORIZON_URL
  moves := Ledger.Moves

namespace Ledger

variable {s s' t : Ledger} {hash : String}

theorem Later.refl (s : Ledger) : s.Later s := fun _ _ => rfl

/-- Only what no ledger has included yet changes. -/
theorem later_update {outcome : OnChain} (h : s hash = .absent ∨ s hash = .pending) :
    s.Later (Function.update s hash outcome) := by
  intro other hfinal
  by_cases hother : other = hash
  · subst hother
    rcases h with h | h <;> rcases hfinal with hfinal | hfinal <;> rw [h] at hfinal <;>
      cases hfinal
  · exact Function.update_of_ne hother _ _

theorem later_deliver : s.Later (s.deliver hash) := by
  unfold deliver
  split_ifs with habsent
  · exact later_update (.inl habsent)
  · exact .refl s

theorem Moves.later {m : LedgerMove} (h : Moves m s s') : s.Later s' := by
  cases m with
  | submitted hash =>
    rw [show s' = s.deliver hash from h]
    exact later_deliver
  | settled hash outcome =>
    obtain ⟨hpending, rfl⟩ := h
    exact later_update (.inr hpending)

end Ledger

variable {net : Network} {HORIZON_URL : String}

theorem Sends.later {signedXdr : String} {s s' : Ledger} {response : SendResponse}
    (h : Sends net signedXdr s response s') : s.Later s' := by
  obtain ⟨-, h⟩ := h
  cases hstatus : response.status with
  | PENDING =>
    rw [hstatus] at h
    rw [show s' = _ from h]
    exact Ledger.later_deliver
  | DUPLICATE =>
    rw [hstatus] at h
    rw [h.2]
    exact .refl s
  | ERROR =>
    rw [hstatus] at h
    rw [show s' = s from h]
    exact .refl s
  | TRY_AGAIN_LATER =>
    rw [hstatus] at h
    rw [show s' = s from h]
    exact .refl s

theorem pageServes_later {i : ℕ} {q : PageRequest} {s s' : Ledger} {a : PageAnswer q}
    (h : pageServes net HORIZON_URL i q s a s') : s.Later s' := by
  cases q with
  | sendTransaction signedXdr => exact Sends.later h
  | getTransaction hash =>
    rw [h.2]
    exact .refl s
  | fetch url =>
    rw [h.2]
    exact .refl s

/-- What an answer says of the ledger for good. -/
def Told (net : Network) (HORIZON_URL : String) : (q : PageRequest) → PageAnswer q → Ledger → Prop
  | .sendTransaction signedXdr, response, _ => response.hash = net.hash signedXdr
  | .getTransaction hash, status, s => Reports (s hash) status
  | .fetch url, res, s => ∀ hash, url = transactionUrl HORIZON_URL hash → res.Reports (s hash)

theorem Told.later {q : PageRequest} {a : PageAnswer q} {s s' : Ledger}
    (h : Told net HORIZON_URL q a s) (hlater : s.Later s') : Told net HORIZON_URL q a s' := by
  cases q with
  | sendTransaction signedXdr => exact h
  | getTransaction hash =>
    cases a with
    | SUCCESS => exact (hlater hash (.inl h)).trans h
    | FAILED xdr => exact (hlater hash (.inr h)).trans h
    | NOT_FOUND => exact trivial
  | fetch url =>
    intro hash hurl hok successful hsuccessful
    have hnow := h hash hurl hok successful hsuccessful
    refine (hlater hash ?_).trans hnow
    rw [hnow]
    split_ifs
    · exact .inl rfl
    · exact .inr rfl

theorem Told.of_serves {i : ℕ} {q : PageRequest} {s s' : Ledger} {a : PageAnswer q}
    (h : pageServes net HORIZON_URL i q s a s') : Told net HORIZON_URL q a s' := by
  cases q with
  | sendTransaction signedXdr => exact h.1
  | getTransaction hash => exact h.2 ▸ h.1
  | fetch url => exact h.2 ▸ h.1

/-! ## What calls tell -/

abbrev PageReply := Reply PageAnswer ThrownValue

/-- The reply says what has become of a transaction. -/
def definite : PageReply → Bool
  | .served (.getTransaction _) .NOT_FOUND => false
  | .served (.getTransaction _) _ => true
  | .served (.fetch _) res => res.ok && res.successful.isOk
  | _ => false

/-- What the error of a submission says: of its replies, and of the ledger for good. -/
inductive SubmitError (net : Network) (lib : Libraries) (signedXdr : String)
    (rs : List PageReply) (s : Ledger) : ContractError → Prop
  /-- Nothing has been sent. -/
  | invalid {thrown} : validateSigned lib signedXdr = .error thrown → rs = [] →
      SubmitError net lib signedXdr rs s (parseContractError thrown "submitSignedTransaction")
  /-- Nobody knows whether it has been sent. -/
  | unanswered {sent thrown} {x : PageReply} : validateSigned lib signedXdr = .ok sent →
      rs = [x] → x.request = .sendTransaction sent → x.answer = .error thrown →
      SubmitError net lib signedXdr rs s (parseContractError thrown "submitSignedTransaction")
  | rejected {sent response} : validateSigned lib signedXdr = .ok sent →
      rs = [.served (.sendTransaction sent) response] → response.status ≠ .PENDING →
      SubmitError net lib signedXdr rs s (rejectedError response.status)
  /-- Nothing definite has been heard, as often as it was asked for. -/
  | timeout {sent response polls} : validateSigned lib signedXdr = .ok sent →
      rs = .served (.sendTransaction sent) response :: polls → polls.length = MAX_RETRIES →
      (∀ x ∈ polls, definite x = false) →
      SubmitError net lib signedXdr rs s (timeoutError (net.hash sent))
  | failed {sent} : validateSigned lib signedXdr = .ok sent → s (net.hash sent) = .failed →
      SubmitError net lib signedXdr rs s (failedError (net.hash sent))

/-- What a call that has ended so says: of its replies, and of the ledger for good. -/
def PageCall.Verdict (net : Network) (lib : Libraries) (HORIZON_URL : String)
    (rs : List PageReply) (s : Ledger) : PageCall → Except ThrownValue PageResult → Prop
  | submit signedXdr, .ok result => result = .confirmed .SUCCESS ∧
      ∃ sent, validateSigned lib signedXdr = .ok sent ∧ s (net.hash sent) = .succeeded
  | submit signedXdr, .error thrown =>
      ∃ e, thrown = .contractError e ∧ SubmitError net lib signedXdr rs s e
  | reconcile hash horizonBaseUrl maxAttempts, .ok result =>
      ∃ status, result = .reconciled ⟨hash, status⟩ ∧
        match status with
        | .NOT_FOUND => rs.length = maxAttempts.getD 12 ∧ ∀ x ∈ rs, definite x = false
        | .SUCCESS => trimSlashes (horizonBaseUrl.getD HORIZON_URL) = trimSlashes HORIZON_URL →
          s hash = .succeeded
        | .FAILED => trimSlashes (horizonBaseUrl.getD HORIZON_URL) = trimSlashes HORIZON_URL →
          s hash = .failed
  | reconcile _ _ _, .error _ => False

/-! ## What the programs make of their replies -/

section

variable {i : ℕ} {lib : Libraries}

/-- The loop ends with a definite status, or after as many replies that say nothing. -/
theorem ensures_pollTransaction (hash : String) (retries : ℕ)
    {getTxResponse : Option TransactionStatus}
    (hlast : getTxResponse = none ∨ getTxResponse = some .NOT_FOUND) :
    Ensures anything i (pollTransaction hash retries getTxResponse) () fun rs r _ =>
      ∃ found, r = .ok found ∧
        ((found = none ∨ found = some .NOT_FOUND) ∧ rs.length = retries ∧
            (∀ x ∈ rs, definite x = false) ∨
          ∃ status, found = some status ∧ status ≠ .NOT_FOUND ∧
            .served (.getTransaction hash) status ∈ rs) := by
  induction retries generalizing getTxResponse with
  | zero =>
    show Ensures _ _ (pure getTxResponse) _ _
    rw [ensures_pure]
    exact ⟨getTxResponse, rfl, .inl ⟨hlast, rfl, fun x hx => nomatch hx⟩⟩
  | succ retries ih =>
    -- one more reply that says nothing
    have hmore : ∀ {x : PageReply} {last : Option TransactionStatus}, definite x = false →
        (last = none ∨ last = some .NOT_FOUND) →
        Ensures anything i (pollTransaction hash retries last) () fun rs r _ =>
          ∃ found, r = .ok found ∧
            ((found = none ∨ found = some .NOT_FOUND) ∧ (x :: rs).length = retries + 1 ∧
                (∀ y ∈ x :: rs, definite y = false) ∨
              ∃ status, found = some status ∧ status ≠ .NOT_FOUND ∧
                .served (.getTransaction hash) status ∈ x :: rs) := by
      intro x last hx hlast
      refine (ih hlast).mono fun rs r _ hrs => ?_
      obtain ⟨found, rfl, hnone | ⟨status, rfl, hstatus, hmem⟩⟩ := hrs
      · obtain ⟨hfound, hlen, hall⟩ := hnone
        refine ⟨found, rfl, .inl ⟨hfound, by rw [List.length_cons, hlen], fun y hy => ?_⟩⟩
        rcases List.mem_cons.mp hy with rfl | hy
        · exact hx
        · exact hall y hy
      · exact ⟨_, rfl, .inr ⟨status, rfl, hstatus, List.mem_cons_of_mem _ hmem⟩⟩
    unfold pollTransaction
    rw [ensures_bind, ensures_handle]
    show Ensures _ _ (ask _ >>= _) _ _
    rw [ensures_bind]
    unfold ask
    rw [ensures_request]
    refine ⟨fun status _ _ => ?_, fun status e _ _ => ?_, fun e => ?_⟩
    · show Ensures _ _ (pure _) _ _
      rw [ensures_pure]
      cases status with
      | NOT_FOUND => exact hmore rfl (.inr rfl)
      | SUCCESS =>
        show Ensures _ _ (pure _) _ _
        rw [ensures_pure]
        exact ⟨_, rfl, .inr ⟨.SUCCESS, rfl, nofun, List.mem_cons_self⟩⟩
      | FAILED xdr =>
        show Ensures _ _ (pure _) _ _
        rw [ensures_pure]
        exact ⟨_, rfl, .inr ⟨.FAILED xdr, rfl, nofun, List.mem_cons_self⟩⟩
    · show Ensures _ _ (pure _) _ _
      rw [ensures_pure]
      exact hmore rfl hlast
    · show Ensures _ _ (pure _) _ _
      rw [ensures_pure]
      exact hmore rfl hlast

/-- What `sendAndPoll` makes of its replies. -/
theorem ensures_sendAndPoll (sent : String) :
    Ensures anything i (sendAndPoll sent) () fun rs r _ =>
      (∃ (x : PageReply) (thrown : ThrownValue), rs = [x] ∧ x.request = .sendTransaction sent ∧
          x.answer = .error thrown ∧ r = .error thrown) ∨
        ∃ response polls, rs = .served (.sendTransaction sent) response :: polls ∧
          (response.status ≠ .PENDING ∧ polls = [] ∧
              r = .error (.contractError (rejectedError response.status)) ∨
            polls.length = MAX_RETRIES ∧ (∀ x ∈ polls, definite x = false) ∧
              r = .error (.contractError (timeoutError response.hash)) ∨
            .served (.getTransaction response.hash) .SUCCESS ∈ polls ∧ r = .ok .SUCCESS ∨
            ∃ xdr, .served (.getTransaction response.hash) (.FAILED xdr) ∈ polls ∧
              r = .error (.contractError (failedError response.hash))) := by
  unfold sendAndPoll
  rw [ensures_bind]
  unfold ask
  rw [ensures_request]
  refine ⟨fun response _ _ => ?_, fun response e _ _ => ?_, fun e => ?_⟩
  · show Ensures _ _ (check _ _ >>= _) _ _
    rw [ensures_bind, ensures_check]
    refine ⟨fun _ => ?_, fun hstatus => ?_⟩
    · show Ensures _ _ (pollTransaction _ _ _ >>= _) _ _
      rw [ensures_bind]
      refine (ensures_pollTransaction response.hash MAX_RETRIES (.inl rfl)).mono
        fun rs r _ hrs => ?_
      obtain ⟨found, rfl, ⟨hfound, hlen, hall⟩ | ⟨status, rfl, hstatus, hmem⟩⟩ := hrs
      · rcases hfound with rfl | rfl
        · show Ensures _ _ (throw _) _ _
          rw [ensures_throw, List.append_nil]
          exact .inr ⟨response, rs, rfl, .inr (.inl ⟨hlen, hall, rfl⟩)⟩
        · show Ensures _ _ (throw _) _ _
          rw [ensures_throw, List.append_nil]
          exact .inr ⟨response, rs, rfl, .inr (.inl ⟨hlen, hall, rfl⟩)⟩
      · cases status with
        | NOT_FOUND => exact absurd rfl hstatus
        | SUCCESS =>
          show Ensures _ _ (pure _) _ _
          rw [ensures_pure, List.append_nil]
          exact .inr ⟨response, rs, rfl, .inr (.inr (.inl ⟨hmem, rfl⟩))⟩
        | FAILED xdr =>
          show Ensures _ _ (throw _) _ _
          rw [ensures_throw, List.append_nil]
          exact .inr ⟨response, rs, rfl, .inr (.inr (.inr ⟨xdr, hmem, rfl⟩))⟩
    · exact .inr ⟨response, [], rfl, .inl ⟨hstatus, rfl, rfl⟩⟩
  · exact .inl ⟨.lost (.sendTransaction sent) response e, e, rfl, rfl, rfl, rfl⟩
  · exact .inl ⟨.refused (.sendTransaction sent) e, e, rfl, rfl, rfl, rfl⟩

variable (net HORIZON_URL) in
/-- What a submission makes of its replies, if these are true. -/
theorem ensures_submit (signedXdr : String) (s : Ledger) :
    Ensures anything i (submitSignedTransaction lib signedXdr) () fun rs r _ =>
      (∀ q a, .served q a ∈ rs → Told net HORIZON_URL q a s) →
        (∃ sent, r = .ok .SUCCESS ∧ validateSigned lib signedXdr = .ok sent ∧
            s (net.hash sent) = .succeeded) ∨
          ∃ e, r = .error (.contractError e) ∧ SubmitError net lib signedXdr rs s e := by
  unfold submitSignedTransaction
  rw [ensures_handle, ensures_bind, ensures_done]
  cases hvalid : validateSigned lib signedXdr with
  | error thrown =>
    show Ensures _ _ (throw _) _ _
    rw [ensures_throw]
    exact fun _ => .inr ⟨_, rfl, .invalid hvalid rfl⟩
  | ok sent =>
    refine (ensures_sendAndPoll sent).mono fun rs r _ hrs => ?_
    rw [List.nil_append]
    obtain ⟨x, thrown, rfl, hrequest, hanswer, rfl⟩ | ⟨response, polls, rfl, hpolls⟩ := hrs
    · show Ensures _ _ (throw _) _ _
      rw [ensures_throw]
      exact fun _ => .inr ⟨_, rfl, .unanswered hvalid rfl hrequest hanswer⟩
    · have hhash : (∀ q a, .served q a ∈ .served (.sendTransaction sent) response :: polls →
          Told net HORIZON_URL q a s) → response.hash = net.hash sent :=
        fun htold => htold _ _ List.mem_cons_self
      obtain ⟨hstatus, rfl, rfl⟩ | ⟨hlen, hall, rfl⟩ | ⟨hmem, rfl⟩ | ⟨xdr, hmem, rfl⟩ := hpolls
      · show Ensures _ _ (throw _) _ _
        rw [ensures_throw]
        exact fun _ => .inr ⟨_, rfl, .rejected hvalid rfl hstatus⟩
      · show Ensures _ _ (throw _) _ _
        rw [ensures_throw, List.append_nil]
        refine fun htold => .inr ⟨_, rfl, ?_⟩
        rw [hhash htold]
        exact .timeout hvalid rfl hlen hall
      · refine fun htold => .inl ⟨sent, rfl, rfl, ?_⟩
        rw [← hhash htold]
        exact htold _ _ (List.mem_cons_of_mem _ hmem)
      · show Ensures _ _ (throw _) _ _
        rw [ensures_throw, List.append_nil]
        refine fun htold => .inr ⟨_, rfl, ?_⟩
        rw [hhash htold]
        refine .failed hvalid ?_
        rw [← hhash htold]
        exact htold _ _ (List.mem_cons_of_mem _ hmem)

/-- What one look-up makes of its reply. -/
theorem ensures_checkTransactionOnHorizon (hash horizonBaseUrl : String) :
    Ensures anything i (checkTransactionOnHorizon hash horizonBaseUrl) () fun rs r _ =>
      ∃ x, rs = [x] ∧
        ((r = .ok ⟨hash, .NOT_FOUND⟩ ∨ ∃ thrown, r = .error thrown) ∧ definite x = false ∨
          ∃ res successful, x = .served (.fetch (transactionUrl horizonBaseUrl hash)) res ∧
            res.ok = true ∧ res.successful = .ok successful ∧
            r = .ok ⟨hash, if successful = some true then .SUCCESS else .FAILED⟩) := by
  unfold checkTransactionOnHorizon
  rw [ensures_bind]
  unfold ask
  rw [ensures_request]
  refine ⟨fun res _ _ => ?_, fun res e _ _ => ⟨_, rfl, .inl ⟨.inr ⟨e, rfl⟩, rfl⟩⟩,
    fun e => ⟨_, rfl, .inl ⟨.inr ⟨e, rfl⟩, rfl⟩⟩⟩
  dsimp only
  split_ifs with h404
  · rw [ensures_pure]
    refine ⟨_, rfl, .inl ⟨.inl rfl, ?_⟩⟩
    simp [definite, HorizonResponse.ok, h404]
  · rw [ensures_bind, ensures_check]
    refine ⟨fun hok => ?_, fun hok => ⟨_, rfl, .inl ⟨.inr ⟨_, rfl⟩, ?_⟩⟩⟩
    · rw [ensures_bind, ensures_done]
      cases hbody : res.successful with
      | error thrown =>
        refine ⟨_, rfl, .inl ⟨.inr ⟨thrown, rfl⟩, ?_⟩⟩
        simp [definite, hbody, Except.isOk, Except.toBool]
      | ok successful =>
        show Ensures _ _ (pure _) _ _
        rw [ensures_pure]
        exact ⟨_, rfl, .inr ⟨res, successful, rfl, hok, hbody, rfl⟩⟩
    · simp [definite, hok]

/-- What the loop makes of its replies. -/
theorem ensures_reconcileAttempts (hash horizonBaseUrl : String) (attempts : ℕ) :
    Ensures anything i (reconcileAttempts hash horizonBaseUrl attempts) () fun rs r _ =>
      ∃ status, r = .ok ⟨hash, status⟩ ∧
        (status = .NOT_FOUND ∧ rs.length = attempts ∧ (∀ x ∈ rs, definite x = false) ∨
          ∃ res successful, .served (.fetch (transactionUrl horizonBaseUrl hash)) res ∈ rs ∧
            res.ok = true ∧ res.successful = .ok successful ∧
            status = if successful = some true then .SUCCESS else .FAILED) := by
  induction attempts with
  | zero =>
    show Ensures _ _ (pure _) _ _
    rw [ensures_pure]
    exact ⟨_, rfl, .inl ⟨rfl, rfl, fun x hx => nomatch hx⟩⟩
  | succ attempts ih =>
    have hmore : ∀ {x : PageReply}, definite x = false →
        Ensures anything i (reconcileAttempts hash horizonBaseUrl attempts) () fun rs r _ =>
          ∃ status, r = .ok ⟨hash, status⟩ ∧
            (status = .NOT_FOUND ∧ (x :: rs).length = attempts + 1 ∧
                (∀ y ∈ x :: rs, definite y = false) ∨
              ∃ res successful,
                .served (.fetch (transactionUrl horizonBaseUrl hash)) res ∈ x :: rs ∧
                res.ok = true ∧ res.successful = .ok successful ∧
                status = if successful = some true then .SUCCESS else .FAILED) := by
      intro x hx
      refine ih.mono fun rs r _ hrs => ?_
      obtain ⟨status, rfl, ⟨rfl, hlen, hall⟩ | ⟨res, successful, hmem, hres⟩⟩ := hrs
      · refine ⟨_, rfl, .inl ⟨rfl, by rw [List.length_cons, hlen], fun y hy => ?_⟩⟩
        rcases List.mem_cons.mp hy with rfl | hy
        · exact hx
        · exact hall y hy
      · exact ⟨status, rfl, .inr ⟨res, successful, List.mem_cons_of_mem _ hmem, hres⟩⟩
    unfold reconcileAttempts
    rw [ensures_bind, ensures_handle]
    refine (ensures_checkTransactionOnHorizon hash horizonBaseUrl).mono fun rs r _ hrs => ?_
    obtain ⟨x, rfl, ⟨rfl | ⟨thrown, rfl⟩, hx⟩ | ⟨res, successful, rfl, hok, hbody, rfl⟩⟩ := hrs
    · exact hmore hx
    · show Ensures _ _ (pure _) _ _
      rw [ensures_pure]
      exact hmore hx
    · have hfound : (if successful = some true then .SUCCESS else .FAILED) ≠
          HorizonTransactionStatus.NOT_FOUND := by
        split_ifs <;> exact nofun
      dsimp only
      rw [if_pos hfound, ensures_pure]
      exact ⟨_, rfl, .inr ⟨res, successful, List.mem_cons_self, hok, hbody, rfl⟩⟩

/-- What a call makes of its replies, if these are true. -/
theorem ensures_program (c : PageCall) (s : Ledger) :
    Ensures anything i (c.program lib HORIZON_URL) () fun rs r _ =>
      (∀ q a, .served q a ∈ rs → Told net HORIZON_URL q a s) →
        c.Verdict net lib HORIZON_URL rs s r := by
  cases c with
  | submit signedXdr =>
    show Ensures _ _ (submitSignedTransaction lib signedXdr >>= _) _ _
    rw [ensures_bind]
    refine (ensures_submit net HORIZON_URL signedXdr s).mono fun rs r _ hrs => ?_
    cases r with
    | error thrown =>
      intro htold
      obtain ⟨sent, hr, -⟩ | ⟨e, hr, he⟩ := hrs htold
      · cases hr
      · exact ⟨e, Except.error.inj hr, he⟩
    | ok status =>
      show Ensures _ _ (pure _) _ _
      rw [ensures_pure, List.append_nil]
      intro htold
      obtain ⟨sent, hr, hsent⟩ | ⟨e, hr, -⟩ := hrs htold
      · rw [Except.ok.inj hr]
        exact ⟨rfl, sent, hsent⟩
      · cases hr
  | reconcile hash horizonBaseUrl maxAttempts =>
    show Ensures _ _ (reconcileAttempts _ _ _ >>= _) _ _
    rw [ensures_bind]
    refine (ensures_reconcileAttempts hash _ _).mono fun rs r _ hrs => ?_
    obtain ⟨status, rfl, hstatus⟩ := hrs
    show Ensures _ _ (pure _) _ _
    rw [ensures_pure, List.append_nil]
    refine fun htold => ⟨status, rfl, ?_⟩
    obtain ⟨rfl, hnone⟩ | ⟨res, successful, hmem, hok, hbody, hstatus⟩ := hstatus
    · exact hnone
    · have hreport : trimSlashes (horizonBaseUrl.getD HORIZON_URL) = trimSlashes HORIZON_URL →
          s hash = if successful = some true then .succeeded else .failed := by
        intro hbase
        refine htold _ _ hmem hash ?_ hok successful hbody
        unfold transactionUrl
        rw [hbase]
      subst hstatus
      split_ifs at hreport ⊢ with hsuccessful
      · exact hreport
      · exact hreport

end

/-! ## Along a run -/

/-- The calls of all users, the servers and the network side by side. -/
abbrev PageStep (net : Network) (lib : Libraries) (HORIZON_URL : String) :=
  System.Step (PageCall.program lib HORIZON_URL) (publicNetwork net HORIZON_URL)

/-- What a call has told, in any interleaving, is true of the ledger from then on: a transaction
    is confirmed or failed only if it is, and an error that says neither says what is unknown. -/
theorem verdict_of_run {net : Network} {lib : Libraries} {HORIZON_URL : String} {s : Ledger}
    {tr : List (System PageAnswer ThrownValue PageResult Ledger ×
      Async.Event PageAnswer ThrownValue PageCall LedgerMove)}
    {t : System PageAnswer ThrownValue PageResult Ledger}
    (hrun : Run (PageStep net lib HORIZON_URL) (.idle s) tr t) {i : ℕ}
    {r : Except ThrownValue PageResult} (hi : t.running i = some (.done r)) :
    ∃ c, startOf i tr = some c ∧
      c.Verdict net lib HORIZON_URL (repliesTo i tr) t.shared r := by
  obtain ⟨c, hstart, hresult⟩ := result_of_run hrun hi
  refine ⟨c, hstart, hresult (ensures_program c t.shared) ?_⟩
  exact told_of_run (T := Told net HORIZON_URL) (fun h => Told.of_serves (i := i) h)
    (fun htold h => htold.later (pageServes_later (i := i) h))
    (fun htold h => htold.later (Ledger.Moves.later h)) hrun i

/-! ## A transaction that is submitted twice -/

/-- The answer of servers that know all about the ledger. -/
def serveNow (net : Network) (_ : Unit) (_ : ℕ) :
    (q : PageRequest) → Ledger → Option (PageAnswer q × Ledger)
  | .sendTransaction signedXdr, s =>
    let hash := net.hash signedXdr
    if s hash = .absent then some (⟨.PENDING, hash, none⟩, s.deliver hash)
    else some (⟨.DUPLICATE, hash, none⟩, s)
  | .getTransaction hash, s =>
    match s hash with
    | .succeeded => some (.SUCCESS, s)
    | .failed => some (.FAILED none, s)
    | _ => some (.NOT_FOUND, s)
  | .fetch _, s => some (⟨404, .ok none⟩, s)

theorem serveNow_serves {net : Network} {HORIZON_URL : String} {x : Unit} {i : ℕ}
    {q : PageRequest} {s s' : Ledger} {a : PageAnswer q}
    (h : serveNow net x i q s = some (a, s')) : pageServes net HORIZON_URL i q s a s' := by
  cases q with
  | sendTransaction signedXdr =>
    simp only [serveNow] at h
    split_ifs at h with habsent
    · cases h
      exact ⟨rfl, rfl⟩
    · cases h
      exact ⟨rfl, habsent, rfl⟩
  | getTransaction hash =>
    unfold serveNow at h
    dsimp only at h
    split at h <;> cases h
    · exact ⟨‹_›, rfl⟩
    · exact ⟨‹_›, rfl⟩
    · exact ⟨trivial, rfl⟩
  | fetch url =>
    cases h
    exact ⟨fun _ _ hok => (nomatch hok), rfl⟩

/-- What happens besides, where it is possible. -/
def LedgerMove.perform : LedgerMove → Ledger → Option Ledger
  | submitted hash, s => some (s.deliver hash)
  | settled hash outcome, s =>
    if s hash = .pending then some (Function.update s hash outcome) else none

theorem LedgerMove.perform_moves {m : LedgerMove} {s s' : Ledger} (h : m.perform s = some s') :
    Ledger.Moves m s s' := by
  cases m with
  | submitted hash => exact (Option.some.inj h).symm
  | settled hash outcome =>
    simp only [LedgerMove.perform] at h
    split_ifs at h with hpending
    cases h
    exact ⟨hpending, rfl⟩

def knowing (net : Network) (HORIZON_URL : String) :
    Script (publicNetwork net HORIZON_URL) Unit where
  serve := serveNow net
  move := LedgerMove.perform
  serve_sound := serveNow_serves
  move_sound := LedgerMove.perform_moves

def sampleLibraries : Libraries := ⟨fun _ => .ok (), ofString⟩

def sampleHashes : Network := ⟨fun signedXdr => "hash of " ++ signedXdr⟩

/-- The transaction is submitted, submitted again before the first answer, and included. -/
def sampleTwice : List (Async.Move ThrownValue PageCall LedgerMove Unit) :=
  [.start 0 (.submit "a signed transaction"), .serve 0 (),
    .start 1 (.submit "a signed transaction"), .serve 1 (),
    .moved (.settled "hash of a signed transaction" .succeeded), .serve 0 ()]

/-- One of two submissions is told that the transaction was rejected by the network, the other
    that it was confirmed. -/
theorem verdict_of_run_duplicate :
    ∃ (tr : List (System PageAnswer ThrownValue PageResult Ledger ×
        Async.Event PageAnswer ThrownValue PageCall LedgerMove))
      (t : System PageAnswer ThrownValue PageResult Ledger),
      t.running 1 = some (.done (.error (.contractError (rejectedError .DUPLICATE)))) ∧
      t.shared "hash of a signed transaction" = .succeeded ∧
      (∃ c, startOf 0 tr = some c ∧ c.Verdict sampleHashes sampleLibraries "https://horizon"
        (repliesTo 0 tr) t.shared (.ok (.confirmed .SUCCESS))) ∧
      ∃ c, startOf 1 tr = some c ∧ c.Verdict sampleHashes sampleLibraries "https://horizon"
        (repliesTo 1 tr) t.shared (.error (.contractError (rejectedError .DUPLICATE))) := by
  have hreplay : ∃ r ∈ replay ((knowing sampleHashes "https://horizon").perform
      (PageCall.program sampleLibraries "https://horizon")) sampleTwice []
      (.idle fun _ => .absent),
      r.2.running 0 = some (.done (.ok (.confirmed .SUCCESS))) ∧
        r.2.running 1 = some (.done (.error (.contractError (rejectedError .DUPLICATE)))) ∧
        r.2.shared "hash of a signed transaction" = .succeeded := by
    refine ⟨_, rfl, ?_, ?_, ?_⟩
    · rfl
    · rfl
    · rfl
  obtain ⟨tr, t, hrun, h0, h1, hsucceeded⟩ := exists_run_of_replay
    (P := fun _ (t : System PageAnswer ThrownValue PageResult Ledger) =>
      t.running 0 = some (.done (.ok (.confirmed .SUCCESS))) ∧
        t.running 1 = some (.done (.error (.contractError (rejectedError .DUPLICATE)))) ∧
        t.shared "hash of a signed transaction" = .succeeded)
    ((knowing sampleHashes "https://horizon").perform_step) hreplay
  exact ⟨tr, t, h1, hsucceeded, verdict_of_run hrun h0, verdict_of_run hrun h1⟩

end InverseArena.Frontend
