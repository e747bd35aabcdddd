import InverseArena.Backend.Payments.Platform

/-!
# Calls on the payment service, side by side

Any number of calls of the service and its workers, with the network settling
transactions in between. BullMQ decides which jobs are run when, and with how many
attempts behind them.

Results:
* `truthful_of_run`: in every state what a call has been told is true, and the hash
  stored with a record is the one of its signed transaction.
* `PaymentStep.effect`: what a step does to the shared state.
* `PaymentStep.reported`: what `confirmSubmittedTransaction` stores as failed has
  failed on the chain.
-/

namespace InverseArena.Backend.Payments

open Async Transition

/-- The calls that work on transaction records. -/
inductive PaymentCall where
  | processBatch (limit : ℕ)
  | submitQueuedTransaction (transactionId : String)
  | confirmSubmittedTransaction (transactionId : String)
  | pollConfirmation (transactionId : String)
  | reconcile (job : Job)

/-- What the call runs. -/
def PaymentCall.program (svc : Service) : PaymentCall → Program Unit
  | processBatch limit => do
    let _ ← Payments.processBatch svc limit
    pure ()
  | submitQueuedTransaction transactionId => do
    let _ ← Payments.submitQueuedTransaction svc transactionId
    pure ()
  | confirmSubmittedTransaction transactionId => do
    let _ ← Payments.confirmSubmittedTransaction transactionId
    pure ()
  | pollConfirmation transactionId => do
    let _ ← Payments.pollConfirmation svc transactionId
    pure ()
  | reconcile job => Payments.reconcile job

theorem PaymentCall.conducted (svc : Service) (c : PaymentCall) : Conducted (c.program svc) := by
  cases c with
  | processBatch limit =>
    exact Conducted.bind (conducted_processBatch svc limit) fun _ => conducted_pure ()
  | submitQueuedTransaction transactionId =>
    exact Conducted.bind (conducted_submitQueuedTransaction svc transactionId)
      fun _ => conducted_pure ()
  | confirmSubmittedTransaction transactionId =>
    exact Conducted.bind (conducted_confirmSubmittedTransaction transactionId)
      fun _ => conducted_pure ()
  | pollConfirmation transactionId =>
    exact Conducted.bind (conducted_pollConfirmation svc transactionId) fun _ => conducted_pure ()
  | reconcile job => exact conducted_reconcile job

/-- One step of the calls and what they run on. -/
abbrev PaymentStep (svc : Service) (net : Network) :=
  System.Step (PaymentCall.program svc) (platform net)

/-- The calls on their platform. -/
abbrev PaymentSystem := System Answer PaymentError Unit PaymentPlatform

/-- What happens to them. -/
abbrev PaymentEvent := Event Answer PaymentError PaymentCall PaymentMove

/-- The request that takes effect in a step. -/
def PaymentEvent.effective : PaymentEvent → Option Request
  | .reply _ r => r.effective
  | _ => none

/-! ## What a step does -/

/-- What a step that executes the request, or none, does to the shared state. -/
inductive Effect (net : Network) (w : PaymentPlatform) : Option Request → PaymentPlatform → Prop
  | same {q} : Effect net w q w
  | updated {writer id patch row} : w.records id = some row →
      Effect net w (some (.update writer id patch))
        { w with records := Function.update w.records id (some (row.patched patch)) }
  | delivered {signedXdr} :
      Effect net w (some (.sendTransaction signedXdr)) (w.deliver (net.hash signedXdr))
  | settled {hash outcome} : w.onChain hash = .pending →
      Effect net w none { w with onChain := Function.update w.onChain hash outcome }

variable {net : Network} {svc : Service} {w w' : PaymentPlatform} {i : ℕ}

theorem serves_effect {q : Request} {a : Answer q} (h : serves net i q w a w') :
    Effect net w (some q) w' := by
  cases q with
  | now =>
    obtain rfl := h
    exact .same
  | findById id =>
    obtain ⟨-, rfl⟩ := h
    exact .same
  | listByStatus statuses limit =>
    obtain ⟨-, rfl⟩ := h
    exact .same
  | update writer id patch =>
    have hupdate : (a, w') = w.update id patch := h
    unfold PaymentPlatform.update at hupdate
    cases hrow : w.records id with
    | none =>
      rw [hrow] at hupdate
      cases hupdate
      exact .same
    | some row =>
      rw [hrow] at hupdate
      cases hupdate
      exact .updated hrow
  | sendTransaction signedXdr =>
    cases a with
    | circuitOpen =>
      obtain rfl : w' = w := h
      exact .same
    | result sendResult =>
      obtain ⟨-, hstatus⟩ := h
      cases hs : sendResult.status with
      | PENDING =>
        rw [hs] at hstatus
        obtain rfl : w' = w.deliver (net.hash signedXdr) := hstatus
        exact .delivered
      | DUPLICATE =>
        rw [hs] at hstatus
        obtain ⟨-, rfl⟩ := hstatus
        exact .same
      | ERROR =>
        rw [hs] at hstatus
        obtain rfl : w' = w := hstatus
        exact .same
      | TRY_AGAIN_LATER =>
        rw [hs] at hstatus
        obtain rfl : w' = w := hstatus
        exact .same
  | getTransaction txHash =>
    obtain ⟨-, rfl⟩ := h
    exact .same
  | addConfirmJob transactionId =>
    obtain rfl := h
    exact .same

variable {t u : PaymentSystem} {ev : PaymentEvent}

theorem PaymentStep.effect (hs : PaymentStep svc net t ev u) :
    Effect net t.shared ev.effective u.shared := by
  cases hs with
  | start _ => exact .same
  | @reply i s' r k hi hr =>
    cases hr with
    | served h => exact serves_effect (i := i) h
    | lost h => exact serves_effect (i := i) h
    | refused => exact .same
  | @moved m s' hm =>
    cases m with
    | settled hash outcome =>
      obtain ⟨hpending, rfl⟩ := hm
      exact .settled hpending

/-! ## What calls have been told -/

/-- The stored hash of a record is the one of its signed transaction. -/
def Linked (net : Network) (w : PaymentPlatform) : Prop :=
  ∀ id row, w.records id = some row → row.id = id ∧
    ∀ hash ∈ row.txHash, ∃ signedXdr ∈ row.signedXdr, hash = net.hash signedXdr

/-- The record has been stored with this signed transaction. -/
structure Known (net : Network) (w : PaymentPlatform) (transaction : TransactionRecord) :
    Prop where
  stored : ∃ row, w.records transaction.id = some row ∧ row.signedXdr = transaction.signedXdr
  hash : ∀ hash ∈ transaction.txHash, ∃ signedXdr ∈ transaction.signedXdr,
    hash = net.hash signedXdr

/-- What a call has been answered is true. -/
def Place.Holds (net : Network) (w : PaymentPlatform) : Place → Prop
  | .ready => True
  | .read transaction => Known net w transaction
  | .sent transaction sendResult => Known net w transaction ∧
    ∃ signedXdr ∈ transaction.signedXdr, sendResult.hash = net.hash signedXdr
  | .found transaction (.FAILED _) => Known net w transaction ∧
    ∃ signedXdr ∈ transaction.signedXdr, w.onChain (net.hash signedXdr) = .failed
  | .found _ _ => True

/-- Records keep their signed transactions, and failed transactions stay failed. -/
structure Later (w w' : PaymentPlatform) : Prop where
  records : ∀ id row, w.records id = some row →
    ∃ row', w'.records id = some row' ∧ row'.signedXdr = row.signedXdr
  failed : ∀ hash, w.onChain hash = .failed → w'.onChain hash = .failed

theorem Later.refl : Later w w := ⟨fun _ row h => ⟨row, h, rfl⟩, fun _ h => h⟩

theorem PaymentPlatform.deliver_records (hash : String) : (w.deliver hash).records = w.records := by
  unfold deliver
  split_ifs
  · rfl
  · rfl

/-- A delivery changes what the network knows of one transaction, if it was absent. -/
theorem PaymentPlatform.deliver_onChain {hash hash' : String}
    (h : hash' = hash → w.onChain hash' ≠ .absent) :
    (w.deliver hash).onChain hash' = w.onChain hash' := by
  unfold deliver
  split_ifs with habsent
  · have hne : hash' ≠ hash := by
      rintro rfl
      exact h rfl habsent
    exact Function.update_of_ne hne ..
  · rfl

theorem Effect.later {q : Option Request} (h : Effect net w q w') : Later w w' := by
  cases h with
  | same => exact .refl
  | @updated writer id patch row hrow =>
    refine ⟨fun id' row' hrow' => ?_, fun _ h => h⟩
    by_cases hid : id' = id
    · subst hid
      obtain rfl : row = row' := Option.some.inj (hrow.symm.trans hrow')
      exact ⟨row.patched patch, Function.update_self .., rfl⟩
    · exact ⟨row', (Function.update_of_ne hid ..).trans hrow', rfl⟩
  | @delivered signedXdr =>
    refine ⟨fun id row hrow => ⟨row, ?_, rfl⟩, fun hash hfailed => ?_⟩
    · rw [PaymentPlatform.deliver_records]
      exact hrow
    · rw [PaymentPlatform.deliver_onChain]
      · exact hfailed
      · intro _ habsent
        rw [hfailed] at habsent
        cases habsent
  | @settled hash outcome hpending =>
    refine ⟨fun id row hrow => ⟨row, hrow, rfl⟩, fun hash' hfailed => ?_⟩
    have hne : hash' ≠ hash := by
      rintro rfl
      rw [hpending] at hfailed
      cases hfailed
    exact (Function.update_of_ne hne ..).trans hfailed

theorem Known.later {transaction : TransactionRecord} (h : Known net w transaction)
    (hlater : Later w w') : Known net w' transaction := by
  obtain ⟨row, hrow, hsigned⟩ := h.stored
  obtain ⟨row', hrow', hsigned'⟩ := hlater.records transaction.id row hrow
  exact ⟨⟨row', hrow', hsigned'.trans hsigned⟩, h.hash⟩

theorem Place.Holds.later {g : Place} (h : g.Holds net w) (hlater : Later w w') :
    g.Holds net w' := by
  match g, h with
  | .ready, _ => exact trivial
  | .read transaction, h => exact Known.later h hlater
  | .sent transaction sendResult, ⟨hknown, hsent⟩ => exact ⟨hknown.later hlater, hsent⟩
  | .found transaction (.FAILED _), ⟨hknown, signedXdr, hsigned, hfailed⟩ =>
    exact ⟨hknown.later hlater, signedXdr, hsigned, hlater.failed _ hfailed⟩
  | .found transaction .SUCCESS, _ => exact trivial
  | .found transaction .NOT_FOUND, _ => exact trivial

/-! ## Every state that calls reach -/

/-- The stored hashes are right, and what the calls have been told is true. -/
def Truthful (net : Network) (w : PaymentPlatform) (gs : ℕ → Option Place) : Prop :=
  Linked net w ∧ ∀ i g, gs i = some g → g.Holds net w

variable {gs : ℕ → Option Place} {g : Place}

theorem Linked.known (h : Linked net w) {id : String} {row : TransactionRecord}
    (hrow : w.records id = some row) : Known net w row := by
  obtain ⟨hid, hhash⟩ := h id row hrow
  refine ⟨⟨row, ?_, rfl⟩, hhash⟩
  rw [hid]
  exact hrow

/-- The hash in an update is the one of the record's signed transaction. -/
theorem Place.hash_of_update {writer : Writer} {id : String} {patch : TransactionPatch}
    {row : TransactionRecord} (ha : g.allows (.update writer id patch)) (hg : g.Holds net w)
    (hrow : w.records id = some row) :
    ∀ hash ∈ patch.txHash, ∃ signedXdr ∈ row.signedXdr, hash = net.hash signedXdr := by
  intro hash hmem
  obtain ⟨transaction, sendResult, rfl, rfl, rfl⟩ := ha.1 hash hmem
  obtain ⟨hknown, hsent⟩ := hg
  obtain ⟨row', hrow', hsigned⟩ := hknown.stored
  obtain rfl : row = row' := Option.some.inj (hrow.symm.trans hrow')
  rw [hsigned]
  exact hsent

theorem Linked.effect (h : Linked net w) {q : Option Request} (he : Effect net w q w')
    (hupdate : ∀ writer id patch row, q = some (.update writer id patch) →
      w.records id = some row →
      ∀ hash ∈ patch.txHash, ∃ signedXdr ∈ row.signedXdr, hash = net.hash signedXdr) :
    Linked net w' := by
  cases he with
  | same => exact h
  | @updated writer id patch row hrow =>
    intro id' row' hrow'
    have hupdated : Function.update w.records id (some (row.patched patch)) id' = some row' :=
      hrow'
    by_cases hid : id' = id
    · subst hid
      rw [Function.update_self] at hupdated
      cases hupdated
      obtain ⟨hrid, hhash⟩ := h id' row hrow
      refine ⟨hrid, fun hash hmem => ?_⟩
      have hpatched : patch.txHash.orElse (fun _ => row.txHash) = some hash := hmem
      cases hp : patch.txHash with
      | none =>
        rw [hp] at hpatched
        exact hhash hash hpatched
      | some hash' =>
        rw [hp] at hpatched
        exact hupdate _ _ patch row rfl hrow hash (hp.trans hpatched)
    · rw [Function.update_of_ne hid] at hupdated
      exact h id' row' hupdated
  | delivered =>
    intro id row hrow
    rw [PaymentPlatform.deliver_records] at hrow
    exact h id row hrow
  | settled hpending => exact h

/-- What a call has been told is true when it is told. -/
theorem Place.Holds.next (hl : Linked net w) (hg : g.Holds net w) {q : Request}
    (ha : g.allows q) {a : Answer q} (hs : serves net i q w a w') (hlater : Later w w') :
    (g.next q (.ok a)).Holds net w' := by
  cases q with
  | now => exact hg.later hlater
  | findById id =>
    obtain ⟨hfound, rfl⟩ := hs
    cases a with
    | none => exact trivial
    | some row => exact hl.known hfound.symm
  | sendTransaction signedXdr =>
    obtain ⟨transaction, rfl, hsigned⟩ := ha
    cases a with
    | circuitOpen => exact trivial
    | result sendResult => exact ⟨Known.later hg hlater, signedXdr, hsigned, hs.1⟩
  | getTransaction txHash =>
    obtain ⟨transaction, rfl, hhash⟩ := ha
    obtain ⟨hreport, rfl⟩ := hs
    match a, hreport with
    | .circuitOpen, _ => exact trivial
    | .result .SUCCESS, _ => exact trivial
    | .result .NOT_FOUND, _ => exact trivial
    | .result (.FAILED _), hfailed =>
      have hknown : Known net w' transaction := hg
      obtain ⟨signedXdr, hsigned, rfl⟩ := hknown.hash txHash hhash
      exact ⟨hknown, signedXdr, hsigned, hfailed⟩
  | _ => exact trivial

theorem Place.Holds.next_error (hg : g.Holds net w) (hlater : Later w w') (q : Request)
    (e : PaymentError) : (g.next q (.error e)).Holds net w' := by
  cases q with
  | now => exact hg.later hlater
  | _ => exact trivial

theorem Truthful.reply (ht : Truthful net w gs) (hg : gs i = some g)
    {r : Reply Answer PaymentError} (ha : g.allows r.request)
    (hr : (platform net).Replies i w r w') :
    Truthful net w' (Function.update gs i (some (g.next r.request r.answer))) := by
  obtain ⟨hl, hholds⟩ := ht
  have hplace := hholds i g hg
  have hstate : Linked net w' ∧ Later w w' ∧ (g.next r.request r.answer).Holds net w' := by
    have hserved : ∀ {q : Request} {a : Answer q}, g.allows q → serves net i q w a w' →
        Linked net w' ∧ Later w w' := by
      intro q a ha hs
      have he := serves_effect hs
      refine ⟨hl.effect he fun writer id patch row hq hrow => ?_, he.later⟩
      cases hq
      exact g.hash_of_update ha hplace hrow
    cases hr with
    | served hs =>
      obtain ⟨hl', hlater⟩ := hserved ha hs
      exact ⟨hl', hlater, Place.Holds.next (i := i) hl hplace ha hs hlater⟩
    | lost hs =>
      obtain ⟨hl', hlater⟩ := hserved ha hs
      exact ⟨hl', hlater, hplace.next_error hlater _ _⟩
    | refused => exact ⟨hl, .refl, hplace.next_error .refl _ _⟩
  obtain ⟨hl', hlater, hnext⟩ := hstate
  refine ⟨hl', fun j g' hj => ?_⟩
  by_cases hji : j = i
  · subst hji
    rw [Function.update_self] at hj
    cases hj
    exact hnext
  · rw [Function.update_of_ne hji] at hj
    exact (hholds j g' hj).later hlater

theorem preserved_truthful (net : Network) :
    Preserved (platform net) conduct (fun _ : PaymentCall => .ready) (Truthful net) where
  answers _ := trivial
  start := by
    intro w gs i c ht _
    refine ⟨ht.1, fun j g hj => ?_⟩
    by_cases hji : j = i
    · subst hji
      rw [Function.update_self] at hj
      cases hj
      exact trivial
    · rw [Function.update_of_ne hji] at hj
      exact ht.2 j g hj
  reply ht hg ha hr := ht.reply hg ha hr
  moved := by
    intro w gs m w' ht hm
    cases m with
    | settled hash outcome =>
      obtain ⟨hpending, rfl⟩ := hm
      have he : Effect net w none
          { w with onChain := Function.update w.onChain hash outcome } := .settled hpending
      exact ⟨ht.1, fun i g hi => (ht.2 i g hi).later he.later⟩

/-- The calls have been told the truth. -/
def TruthfulSystem (net : Network) (t : PaymentSystem) : Prop :=
  Guarded conduct (Truthful net) (fun _ _ => True) t

theorem truthful_of_run {tr : List (PaymentSystem × PaymentEvent)} (hl : Linked net w)
    (hrun : Run (PaymentStep svc net) (.idle w) tr t) : TruthfulSystem net t :=
  Guarded.of_run (preserved_truthful net) (fun c => c.conducted svc .ready)
    ⟨hl, fun _ _ h => nomatch h⟩ hrun

/-- What `confirmSubmittedTransaction` stores as failed has failed on the chain. -/
theorem PaymentStep.reported (ht : TruthfulSystem net t) (hs : PaymentStep svc net t ev u)
    {id : String} {patch : TransactionPatch} {status : PaymentStatus} {row : TransactionRecord}
    (heff : PaymentEvent.effective ev = some (.update .confirmSubmittedTransaction id patch))
    (hstatus : status ∈ patch.status) (hgiven : status.givenUp = true)
    (hrow : t.shared.records id = some row) :
    ∃ signedXdr ∈ row.signedXdr, t.shared.onChain (net.hash signedXdr) = .failed := by
  cases hs with
  | start _ => cases heff
  | @reply i s' r k hi hr =>
    obtain ⟨gs, g, ⟨hl, hholds⟩, hg, ha⟩ := Guarded.request ht hi
    have ha' : g.allows r.request := ha
    rw [Reply.request_of_effective heff] at ha'
    obtain ⟨transaction, xdr, rfl, rfl⟩ := ha'.2 rfl status hstatus hgiven
    obtain ⟨hknown, signedXdr, hsigned, hfailed⟩ := hholds i _ hg
    obtain ⟨row', hrow', hsame⟩ := hknown.stored
    obtain rfl : row = row' := Option.some.inj (hrow.symm.trans hrow')
    refine ⟨signedXdr, ?_, hfailed⟩
    rw [hsame]
    exact hsigned
  | moved _ => cases heff

end InverseArena.Backend.Payments
