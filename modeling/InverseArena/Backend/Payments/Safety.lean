import InverseArena.Backend.Payments.Replay

/-!
# Is the status of a payout safe?

Every update of a record sets its status, whatever it has become since its call read
it: `confirmed` and `dead` can be overwritten. A submission whose answer is lost, or
that is repeated, is given up as failed although the transaction may go through, and
the reconciler gives up on a transaction that has not been found.

Results:
* `payout_safe`: a record stays confirmed or dead, and a transaction that succeeds on
  the chain is not left failed or dead, in every run whose steps are careful.
* `not_payout_safe`: a submission whose answer is lost overwrites a confirmation.
-/

namespace InverseArena.Backend.Payments

open Async Transition

/-! ## Safety -/

/-- The statuses that a record is not to leave. -/
def PaymentStatus.settled : PaymentStatus → Bool
  | confirmed | dead => true
  | _ => false

/-- The status of a record. -/
def statusOf (t : PaymentSystem) (id : String) : Option PaymentStatus :=
  (t.shared.records id).map (·.status)

/-- The last step has not taken the record out of confirmed or dead. -/
def StaysSettled (id : String) : List (PaymentSystem × PaymentEvent) → PaymentSystem → Prop
  | [], _ => True
  | e :: _, t => ∀ status ∈ statusOf e.1 id, status.settled = true → statusOf t id = some status

/-- The record's transaction has succeeded on the chain. -/
def Succeeded (net : Network) (w : PaymentPlatform) (id : String) : Prop :=
  ∃ row ∈ w.records id, ∃ signedXdr ∈ row.signedXdr, w.onChain (net.hash signedXdr) = .succeeded

instance (net : Network) (w : PaymentPlatform) (id : String) : Decidable (Succeeded net w id) :=
  inferInstanceAs (Decidable (∃ row ∈ w.records id, ∃ signedXdr ∈ row.signedXdr,
    w.onChain (net.hash signedXdr) = .succeeded))

/-- The record is not left failed or dead when its transaction has succeeded. -/
def NotLost (net : Network) (id : String) (t : PaymentSystem) : Prop :=
  Succeeded net t.shared id → ∀ status ∈ statusOf t id, status.givenUp = false

/-- The status of the payout is safe. -/
def Safe (net : Network) (id : String) (tr : List (PaymentSystem × PaymentEvent))
    (t : PaymentSystem) : Prop := StaysSettled id tr t ∧ NotLost net id t

/-! ## Careful steps -/

/-- The status of the records that the call works on. -/
def Writer.expects : Writer → PaymentStatus
  | submitQueuedTransaction => .queued
  | confirmSubmittedTransaction => .submitted
  | handleFailedTransaction => .failed
  | txReconciler => .submitted

/-- Who gives a transaction up without having been told that it failed. -/
def Writer.guesses : Writer → Bool
  | submitQueuedTransaction | txReconciler => true
  | _ => false

/-- The network does not have the transaction, or is done with it. -/
def OnChain.gone : OnChain → Bool
  | absent | failed => true
  | pending | succeeded => false

/-- The network will not let the record's transaction succeed as it stands. -/
def Gone (net : Network) (w : PaymentPlatform) (row : TransactionRecord) : Prop :=
  ∀ signedXdr ∈ row.signedXdr, (w.onChain (net.hash signedXdr)).gone = true

/-- An update of the record takes effect while it still has the status that its call
    works on, or has the new one already; it gives the transaction up on a guess only
    when the network does not have it; and the transaction is not sent once it has
    been given up. -/
def Careful (net : Network) (id : String) (_ : List (PaymentSystem × PaymentEvent))
    (t : PaymentSystem) (ev : PaymentEvent) : Prop :=
  match PaymentEvent.effective ev, t.shared.records id with
  | some (.update writer id' patch), some row => id' = id → ∀ status ∈ patch.status,
      (row.status = writer.expects ∨ row.status = status) ∧
      (writer.guesses = true → status.givenUp = true → Gone net t.shared row)
  | some (.sendTransaction signedXdr), some row =>
    (∃ xdr ∈ row.signedXdr, net.hash xdr = net.hash signedXdr) → row.status.givenUp = false
  | _, _ => True

variable {net : Network} {id : String}

instance (w : PaymentPlatform) (row : TransactionRecord) : Decidable (Gone net w row) :=
  inferInstanceAs (Decidable (∀ signedXdr ∈ row.signedXdr,
    (w.onChain (net.hash signedXdr)).gone = true))

instance (tr : List (PaymentSystem × PaymentEvent)) (t : PaymentSystem) (ev : PaymentEvent) :
    Decidable (Careful net id tr t ev) := by
  unfold Careful
  split
  · infer_instance
  · infer_instance
  · infer_instance

/-- A record that has been given up has a transaction that will not succeed. -/
def Justified (net : Network) (id : String) (w : PaymentPlatform) : Prop :=
  ∃ row, w.records id = some row ∧ (row.status.givenUp = true → Gone net w row)

variable {svc : Service} {w : PaymentPlatform}
variable {t u : PaymentSystem} {ev : PaymentEvent} {tr : List (PaymentSystem × PaymentEvent)}

theorem Justified.notLost (h : Justified net id t.shared) : NotLost net id t := by
  obtain ⟨row, hrow, hgone⟩ := h
  rintro ⟨row', hrow', signedXdr, hsigned, hsucceeded⟩ status hstatus
  obtain rfl : row = row' := Option.some.inj (hrow.symm.trans hrow')
  unfold statusOf at hstatus
  rw [hrow] at hstatus
  cases hstatus
  cases hgiven : row.status.givenUp with
  | false => rfl
  | true =>
    have hnet := hgone hgiven signedXdr hsigned
    rw [hsucceeded] at hnet
    cases hnet

/-- A step that keeps the status of the record. -/
theorem staysSettled_of_eq (h : statusOf u id = statusOf t id) :
    StaysSettled id ((t, ev) :: tr) u := by
  intro status hstatus _
  rw [h]
  exact hstatus

theorem statusOf_eq {row : TransactionRecord} (h : t.shared.records id = some row) :
    statusOf t id = some row.status := by
  unfold statusOf
  rw [h]
  rfl

theorem Careful.update (h : Careful net id tr t ev) {writer : Writer} {patch : TransactionPatch}
    {row : TransactionRecord}
    (heff : PaymentEvent.effective ev = some (.update writer id patch))
    (hrow : t.shared.records id = some row) : ∀ status ∈ patch.status,
      (row.status = writer.expects ∨ row.status = status) ∧
        (writer.guesses = true → status.givenUp = true → Gone net t.shared row) := by
  unfold Careful at h
  rw [heff, hrow] at h
  exact h rfl

theorem Careful.send (h : Careful net id tr t ev) {signedXdr : String} {row : TransactionRecord}
    (heff : PaymentEvent.effective ev = some (.sendTransaction signedXdr))
    (hrow : t.shared.records id = some row)
    (hsigned : ∃ xdr ∈ row.signedXdr, net.hash xdr = net.hash signedXdr) :
    row.status.givenUp = false := by
  unfold Careful at h
  rw [heff, hrow] at h
  exact h hsigned

theorem Writer.expects_not_settled (writer : Writer) : writer.expects.settled = false := by
  cases writer with
  | _ => rfl

/-! ## One step -/

/-- A careful update does not take a record out of confirmed or dead. -/
theorem staysSettled_update (hc : Careful net id tr t ev) {writer : Writer}
    {patch : TransactionPatch} {row : TransactionRecord}
    (heff : PaymentEvent.effective ev = some (.update writer id patch))
    (hrow : t.shared.records id = some row)
    (hrow' : u.shared.records id = some (row.patched patch)) :
    StaysSettled id ((t, ev) :: tr) u := by
  intro status hstatus hsettled
  rw [statusOf_eq hrow] at hstatus
  rw [statusOf_eq hrow']
  cases hstatus
  show some (patch.status.getD row.status) = some row.status
  cases hp : patch.status with
  | none => rfl
  | some status =>
    obtain ⟨hexpects | hsame, -⟩ := hc.update heff hrow status hp
    · rw [hexpects, writer.expects_not_settled] at hsettled
      cases hsettled
    · rw [hsame]
      rfl

/-- A careful update gives up only what will not succeed. -/
theorem gone_of_update (ht : TruthfulSystem net t) (hs : PaymentStep svc net t ev u)
    (hc : Careful net id tr t ev) {writer : Writer} {patch : TransactionPatch}
    {row : TransactionRecord}
    (heff : PaymentEvent.effective ev = some (.update writer id patch))
    (hrow : t.shared.records id = some row)
    (hgone : row.status.givenUp = true → Gone net t.shared row)
    (hgiven : (row.patched patch).status.givenUp = true) : Gone net t.shared row := by
  have hstatus : (patch.status.getD row.status).givenUp = true := hgiven
  cases hp : patch.status with
  | none =>
    rw [hp] at hstatus
    exact hgone hstatus
  | some status =>
    rw [hp] at hstatus
    obtain ⟨hexpects | hsame, hguess⟩ := hc.update heff hrow status hp
    · cases writer with
      | submitQueuedTransaction => exact hguess rfl hstatus
      | txReconciler => exact hguess rfl hstatus
      | handleFailedTransaction =>
        refine hgone ?_
        rw [hexpects]
        rfl
      | confirmSubmittedTransaction =>
        obtain ⟨signedXdr, hsigned, hfailed⟩ := hs.reported ht heff hp hstatus hrow
        intro signedXdr' hsigned'
        obtain rfl : signedXdr = signedXdr' := Option.some.inj (hsigned.symm.trans hsigned')
        rw [hfailed]
        rfl
    · refine hgone ?_
      rw [hsame]
      exact hstatus

/-- A step that leaves the record alone. -/
theorem safe_of_records_eq (hrecord : u.shared.records id = t.shared.records id)
    (hj : Justified net id u.shared) :
    Safe net id ((t, ev) :: tr) u ∧ Justified net id u.shared := by
  have hstatus : statusOf u id = statusOf t id := by
    unfold statusOf
    rw [hrecord]
  exact ⟨⟨staysSettled_of_eq hstatus, hj.notLost⟩, hj⟩

/-- The record stays justified when the network does not change what it makes of its
    transaction, as long as it has been given up. -/
theorem Justified.onChain {w' : PaymentPlatform} (hj : Justified net id w)
    (hrecord : w'.records id = w.records id)
    (hnet : ∀ row signedXdr, w.records id = some row → row.status.givenUp = true →
      row.signedXdr = some signedXdr →
      w'.onChain (net.hash signedXdr) = w.onChain (net.hash signedXdr)) :
    Justified net id w' := by
  obtain ⟨row, hrow, hgone⟩ := hj
  refine ⟨row, hrecord.trans hrow, fun hgiven signedXdr hsigned => ?_⟩
  rw [hnet row signedXdr hrow hgiven hsigned]
  exact hgone hgiven signedXdr hsigned

theorem safe_step (ht : TruthfulSystem net t) (hj : Justified net id t.shared)
    (hs : PaymentStep svc net t ev u) (hc : Careful net id tr t ev) :
    Safe net id ((t, ev) :: tr) u ∧ Justified net id u.shared := by
  have he := hs.effect
  generalize heff : PaymentEvent.effective ev = q at he
  obtain ⟨w', hu⟩ : ∃ w', w' = u.shared := ⟨_, rfl⟩
  rw [← hu] at he
  cases he with
  | same =>
    refine safe_of_records_eq (by rw [← hu]) ?_
    rw [← hu]
    exact hj
  | @updated writer id' patch row hrow =>
    by_cases hid : id' = id
    · subst hid
      have hrow' : u.shared.records id' = some (row.patched patch) := by
        rw [← hu]
        exact Function.update_self ..
      obtain ⟨row₀, hrow₀, hgone⟩ := hj
      obtain rfl : row = row₀ := Option.some.inj (hrow.symm.trans hrow₀)
      have hj' : Justified net id' u.shared := by
        refine ⟨row.patched patch, hrow', fun hgiven => ?_⟩
        have hgone' := gone_of_update ht hs hc heff hrow hgone hgiven
        rw [← hu]
        exact hgone'
      exact ⟨⟨staysSettled_update hc heff hrow hrow', hj'.notLost⟩, hj'⟩
    · have hrecord : u.shared.records id = t.shared.records id := by
        rw [← hu]
        exact Function.update_of_ne (Ne.symm hid) ..
      refine safe_of_records_eq hrecord (hj.onChain hrecord fun _ _ _ _ _ => ?_)
      rw [← hu]
  | @delivered signedXdr =>
    have hrecord : u.shared.records id = t.shared.records id := by
      rw [← hu, PaymentPlatform.deliver_records]
    refine safe_of_records_eq hrecord (hj.onChain hrecord fun row xdr hrow hgiven hsigned => ?_)
    rw [← hu]
    refine PaymentPlatform.deliver_onChain fun hhash => ?_
    have hnot := hc.send heff hrow ⟨xdr, hsigned, hhash⟩
    rw [hgiven] at hnot
    cases hnot
  | @settled hash outcome hpending =>
    have hrecord : u.shared.records id = t.shared.records id := by rw [← hu]
    refine safe_of_records_eq hrecord (hj.onChain hrecord fun row xdr hrow hgiven hsigned => ?_)
    have hne : net.hash xdr ≠ hash := by
      rintro rfl
      obtain ⟨row', hrow', hgone⟩ := hj
      obtain rfl : row = row' := Option.some.inj (hrow.symm.trans hrow')
      have hnet := hgone hgiven xdr hsigned
      rw [hpending] at hnet
      cases hnet
    rw [← hu]
    exact Function.update_of_ne hne ..

/-! ## Whole runs -/

/-- From a record that has not been given up, in every interleaving of any calls whose
    steps are careful about it: it does not leave confirmed or dead, and it is not
    failed or dead when its transaction has succeeded on the chain. -/
theorem payout_safe {row : TransactionRecord} (hlinked : Linked net w)
    (hrow : w.records id = some row) (hnew : row.status.givenUp = false)
    (hrun : Run (PaymentStep svc net) (.idle w) tr t) (hcareful : EachStep (Careful net id) tr) :
    AlongRun (Safe net id) tr t := by
  have hj : Justified net id w := by
    refine ⟨row, hrow, fun hgiven => ?_⟩
    rw [hnew] at hgiven
    cases hgiven
  have hstart : Safe net id [] (.idle w) ∧ Justified net id w :=
    ⟨⟨trivial, Justified.notLost (t := .idle w) hj⟩, hj⟩
  have halong : AlongRun (fun tr t => Safe net id tr t ∧ Justified net id t.shared) tr t :=
    hrun.alongRun hstart (fun _ _ _ _ hr hold hc hs =>
      safe_step (truthful_of_run hlinked hr) hold.2 hs hc) hcareful
  exact halong.mono fun _ _ h => h.1

/-! ## An answer that is lost -/

/-- Moves of the calls and what they run on. -/
abbrev PaymentScript := List (Async.Move PaymentError PaymentCall PaymentMove Lookup)

/-- The payment worker submits the payout and queues its confirmation. -/
def sampleSubmission : PaymentScript :=
  .start 0 (.processBatch 25) :: List.replicate 6 (.serve 0 .prompt)

/-- A second submission has read the record. -/
def sampleReread : PaymentScript :=
  [.start 1 (.submitQueuedTransaction "payout"), .serve 1 .prompt]

/-- A ledger includes the transaction. -/
def sampleInclusion : PaymentScript := [.moved (.settled "hash of xdr" .succeeded)]

/-- A confirmation finds it. -/
def sampleConfirmation : PaymentScript :=
  .start 2 (.confirmSubmittedTransaction "payout") :: List.replicate 5 (.serve 2 .prompt)

/-- The second submission sends the transaction again, and the breaker's timeout comes
    before the answer. -/
def sampleResend : PaymentScript :=
  .lose 1 .prompt (.rejected none) :: List.replicate 2 (.serve 1 .prompt)

/-- The record is confirmed, and the second submission then stores it as failed; its
    transaction has succeeded. -/
theorem exists_lostAnswer : ∃ tr t,
    Run (PaymentStep sampleConfig sampleNetwork) (.idle sampleStore) tr t ∧
      (tr.head?.bind fun e => statusOf e.1 "payout") = some .confirmed ∧
      statusOf t "payout" = some .failed ∧ Succeeded sampleNetwork t.shared "payout" := by
  have hreplay : ∃ r ∈ replay ((working sampleNetwork).perform (PaymentCall.program sampleConfig))
      (sampleReread ++ sampleSubmission ++ sampleInclusion ++ sampleConfirmation ++ sampleResend)
      [] (.idle sampleStore),
      (r.1.head?.bind fun e => statusOf e.1 "payout") = some .confirmed ∧
        statusOf r.2 "payout" = some .failed ∧ Succeeded sampleNetwork r.2.shared "payout" := by
    decide +kernel
  exact exists_run_of_replay ((working sampleNetwork).perform_step) hreplay

/-- Both halves of the safety fail: the record leaves confirmed, and it ends failed with
    its transaction on the chain. -/
theorem not_payout_safe : ∃ tr t,
    Run (PaymentStep sampleConfig sampleNetwork) (.idle sampleStore) tr t ∧
      ¬ AlongRun (StaysSettled "payout") tr t ∧ ¬ NotLost sampleNetwork "payout" t ∧
      ¬ AlongRun (Safe sampleNetwork "payout") tr t := by
  obtain ⟨tr, t, hrun, hbefore, hfailed, hsucceeded⟩ := exists_lostAnswer
  have hlost : ¬ NotLost sampleNetwork "payout" t := by
    intro h
    cases h hsucceeded .failed hfailed
  refine ⟨tr, t, hrun, fun halong => ?_, hlost, fun halong => hlost halong.last.2⟩
  have hstays := halong.last
  cases tr with
  | nil => cases hbefore
  | cons e tr =>
    have hkept := hstays .confirmed hbefore rfl
    rw [hfailed] at hkept
    cases hkept

/-- The payout is submitted, included and confirmed. -/
theorem payout_safe_sample : ∃ tr t,
    Run (PaymentStep sampleConfig sampleNetwork) (.idle sampleStore) tr t ∧
      statusOf t "payout" = some .confirmed ∧ AlongRun (Safe sampleNetwork "payout") tr t := by
  obtain ⟨tr, t, hrun, hconfirmed, hcareful⟩ : ∃ tr t,
      Run (PaymentStep sampleConfig sampleNetwork) (.idle sampleStore) tr t ∧
        statusOf t "payout" = some .confirmed ∧
        EachStep (Careful sampleNetwork "payout") tr := by
    have hreplay : ∃ r ∈ replay ((working sampleNetwork).perform
        (PaymentCall.program sampleConfig))
        (sampleSubmission ++ sampleInclusion ++ sampleConfirmation) [] (.idle sampleStore),
        statusOf r.2 "payout" = some .confirmed ∧
          EachStep (Careful sampleNetwork "payout") r.1 := by
      decide +kernel
    exact exists_run_of_replay ((working sampleNetwork).perform_step) hreplay
  exact ⟨tr, t, hrun, hconfirmed,
    payout_safe sampleStore_linked rfl rfl hrun hcareful⟩

end InverseArena.Backend.Payments
