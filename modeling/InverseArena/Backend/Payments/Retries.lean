import InverseArena.Backend.Payments.Credit
import InverseArena.Backend.Payments.Replay
import Mathlib.Data.List.Nodup

/-!
# Are failed payouts retried for ever?

The payment worker queues a failed payout again while its attempts are below
`failedRetryMax`; a submission counts an attempt only while they are below
`maxAttempts`, and fails the payout again without counting one from there on. When
they reach `failedRetryMax` the worker writes `dead`, which two of the three
repositories do not accept.

Results:
* `retries_end_iff`: retries are bounded, and the write of `dead` is accepted, for
  exactly the records in memory and the bounds with `failedRetryMax ≤ maxAttempts`
  (or no live execution).
-/

namespace InverseArena.Backend.Payments

open Async Transition

/-! ## Calls one after another -/

/-- What happens to the records: a call runs from its start to its end, a payout is
    created, or its signed transaction is queued. -/
inductive RetryEvent where
  | called (c : PaymentCall) (replies : List (Reply Answer PaymentError))
  | created (row : TransactionRecord)
  | signed (id : String) (signedXdr : String)

/-- The replies to the requests of the call. -/
def RetryEvent.replies : RetryEvent → List (Reply Answer PaymentError)
  | called _ replies => replies
  | created _ | signed _ _ => []

/-- The record of `createPayoutTransaction` before anything else happens to it. -/
structure TransactionRecord.IsNew (row : TransactionRecord) : Prop where
  status : row.status ∈ [PaymentStatus.built, .awaiting_signature, .queued]
  attempts : row.attempts = 0

/-- What `queueSignedTransaction` makes of a record. -/
def TransactionRecord.signed (row : TransactionRecord) (signedXdr : String) (updatedAt : ℕ) :
    TransactionRecord :=
  { row with
    signedXdr := some signedXdr
    status := .queued
    errorMessage := none
    updatedAt := updatedAt }

inductive RetryStep (svc : Service) (repo : Repository) :
    PaymentPlatform → RetryEvent → PaymentPlatform → Prop
  | called {w w' : PaymentPlatform} {c : PaymentCall} {rs : List (Reply Answer PaymentError)}
      {r : Except PaymentError Unit} : Exec repo.server 0 (c.program svc) w rs r w' →
      RetryStep svc repo w (.called c rs) w'
  | created {w : PaymentPlatform} {row : TransactionRecord} : row.IsNew → row.id ∉ w.ids →
      w.records row.id = none →
      RetryStep svc repo w (.created row) { w.put row.id row with ids := w.ids ++ [row.id] }
  | signed {w : PaymentPlatform} {id signedXdr : String} {row : TransactionRecord}
      {updatedAt : ℕ} : w.records id = some row →
      row.status = .awaiting_signature ∨ row.status = .built →
      RetryStep svc repo w (.signed id signedXdr) (w.put id (row.signed signedXdr updatedAt))

/-- How often the record has been queued again. -/
def requeued (id : String) : List (PaymentPlatform × RetryEvent) → ℕ
  | [] => 0
  | e :: tr => e.2.replies.countP (requeues id) + requeued id tr

/-- A write of `dead` passes the checks of the store. -/
def DeadAccepted (repo : Repository) (r : Reply Answer PaymentError) : Prop :=
  ∀ writer id patch, r.request = .update writer id patch → patch.status = some .dead →
    repo.Accepts patch

/-- From any store, whatever is called and answered: no record is queued again more
    than `failedRetryMax` times, and every write of `dead` is accepted. -/
def RetriesEnd (svc : Service) (repo : Repository) : Prop :=
  ∀ w tr w', w.Keyed → Run (RetryStep svc repo) w tr w' →
    (∀ id, requeued id tr ≤ svc.failedRetryMax) ∧
    ∀ e ∈ tr, ∀ r ∈ e.2.replies, DeadAccepted repo r

section

variable {svc : Service} {repo : Repository} {w w' : PaymentPlatform} {tracked id : String}

/-! ## Whole runs -/

variable {ev : RetryEvent} {tr : List (PaymentPlatform × RetryEvent)}

/-- A step pays for the retries it makes. -/
theorem RetryStep.paid (hbounded : Bounded svc) (h : w.Keyed) (hs : RetryStep svc repo w ev w') :
    w'.Keyed ∧ ev.replies.countP (requeues tracked) + w'.credit svc.failedRetryMax tracked ≤
      w.credit svc.failedRetryMax tracked := by
  cases hs with
  | called he =>
    have hspent : Spent svc.failedRetryMax tracked Set.univ w _ w' :=
      worksOn_call hbounded h _ _ _ _ he
    exact ⟨hspent.keyed, hspent.paid⟩
  | @created row hnew hids habsent =>
    refine ⟨⟨?_, ?_⟩, ?_⟩
    · exact List.nodup_append_comm.mp (List.nodup_cons.mpr ⟨hids, h.nodup⟩)
    · exact (h.put rfl).id
    · show 0 + _ ≤ _
      by_cases ht : tracked = row.id
      · subst ht
        have hbefore : w.credit svc.failedRetryMax row.id = svc.failedRetryMax := by
          unfold PaymentPlatform.credit
          rw [habsent]
        have hafter : (w.put row.id row).credit svc.failedRetryMax row.id ≤ svc.failedRetryMax :=
          PaymentPlatform.credit_le _ _
        show 0 + (w.put row.id row).credit _ _ ≤ _
        omega
      · have hsame : (w.put row.id row).credit svc.failedRetryMax tracked =
            w.credit svc.failedRetryMax tracked := by
          unfold PaymentPlatform.credit
          rw [w.put_records_of_ne row ht]
        show 0 + (w.put row.id row).credit _ _ ≤ _
        omega
  | @signed id signedXdr row updatedAt hrow hstatus =>
    have hspent : Spent svc.failedRetryMax tracked Set.univ w 0
        (w.put id (row.signed signedXdr updatedAt)) := by
      refine Spent.put h (Set.mem_univ _) hrow rfl (fun _ => ?_) fun _ => rfl
      have hcredit : (row.signed signedXdr updatedAt).credit svc.failedRetryMax ≤
          svc.failedRetryMax - (row.attempts + 1) := by
        show (if _ then svc.failedRetryMax - (row.attempts + 1) else 0) ≤ _
        split_ifs
        · exact Nat.le_refl _
        · exact Nat.zero_le _
      have hwaiting : row.credit svc.failedRetryMax = svc.failedRetryMax - (row.attempts + 1) := by
        obtain hstatus | hstatus := hstatus
        · simp only [TransactionRecord.credit, hstatus]
        · simp only [TransactionRecord.credit, hstatus]
      omega
    exact ⟨hspent.keyed, hspent.paid⟩

theorem requeued_le (hbounded : Bounded svc) (h : w.Keyed)
    (hrun : Run (RetryStep svc repo) w tr w') :
    w'.Keyed ∧ requeued tracked tr + w'.credit svc.failedRetryMax tracked ≤
      svc.failedRetryMax := by
  induction hrun with
  | nil =>
    have hcredit : w.credit svc.failedRetryMax tracked ≤ svc.failedRetryMax :=
      PaymentPlatform.credit_le w tracked
    refine ⟨h, ?_⟩
    show 0 + _ ≤ _
    omega
  | @snoc tr t a u hr hs ih =>
    obtain ⟨hkeyed, hpaid⟩ := ih
    obtain ⟨hkeyed', hstep⟩ : u.Keyed ∧
        a.replies.countP (requeues tracked) + u.credit svc.failedRetryMax tracked ≤
          t.credit svc.failedRetryMax tracked := hs.paid hbounded hkeyed
    refine ⟨hkeyed', ?_⟩
    show (a.replies.countP (requeues tracked) + requeued tracked tr) + _ ≤ _
    omega

/-- In memory every status can be stored. -/
theorem accepts_inMemory (patch : TransactionPatch) : Repository.inMemory.Accepts patch := by
  intro status _
  cases status with
  | _ => decide

theorem retriesEnd_of_bounded (hbounded : Bounded svc) : RetriesEnd svc .inMemory := by
  intro w tr w' h hrun
  refine ⟨fun id => ?_, fun e _ r _ writer id patch _ _ => accepts_inMemory patch⟩
  have hpaid : requeued id tr + w'.credit svc.failedRetryMax id ≤ svc.failedRetryMax :=
    (requeued_le hbounded h hrun).2
  omega

/-! ## One record and its calls -/

/-- The store of one record. -/
def single (row : TransactionRecord) : PaymentPlatform where
  ids := [row.id]
  records := Function.update (fun _ => none) row.id (some row)
  onChain _ := .absent

theorem single_records (row : TransactionRecord) : (single row).records row.id = some row := by
  simp [single]

theorem single_keyed (row : TransactionRecord) : (single row).Keyed where
  nodup := List.nodup_singleton row.id
  id := by
    intro id row' hrow'
    by_cases hid : id = row.id
    · subst hid
      rw [single_records] at hrow'
      cases hrow'
      rfl
    · have hnone : (single row).records id = none := by
        simp [single, Function.update_of_ne hid]
      rw [hnone] at hrow'
      cases hrow'

/-- What the update of the one record stores, as the patch says. -/
theorem exec_update {row : TransactionRecord} {writer : Writer} {patch : TransactionPatch}
    (haccepts : repo.Accepts patch) :
    Exec repo.server 0 (update writer row.id patch) (single row)
      [.served (.update writer row.id patch) (some (row.patched patch))]
      (.ok (row.patched patch)) (single (row.patched patch)) := by
  have hstores : repo.Stores row patch (row.patched patch) := by
    cases repo with
    | inMemory => rfl
    | sql => exact ⟨patch.updatedAt, rfl⟩
    | mongo => exact ⟨patch.updatedAt, rfl⟩
  have hput : (single row).put row.id (row.patched patch) = single (row.patched patch) := by
    unfold single PaymentPlatform.put
    dsimp only
    rw [Function.update_idem]
    rfl
  have hserves : repo.server.serves 0 (.update writer row.id patch) (single row)
      (some (row.patched patch)) (single (row.patched patch)) := by
    refine ⟨haccepts, ?_⟩
    rw [single_records]
    exact ⟨row.patched patch, hstores, rfl, hput.symm⟩
  exact (Exec.served hserves).bind .done

theorem exec_now (time : ℕ) :
    Exec repo.server 0 now w [.served .now time] (.ok time) w :=
  Exec.handle (Exec.served rfl)

theorem exec_requireTransaction (row : TransactionRecord) :
    Exec repo.server 0 (requireTransaction row.id) (single row)
      [.served (.findById row.id) (some row)] (.ok row) (single row) := by
  have hserves : repo.server.serves 0 (.findById row.id) (single row) (some row) (single row) :=
    ⟨(single_records row).symm, rfl⟩
  exact (Exec.served hserves).bind .done

theorem lists_single {row : TransactionRecord} {statuses : List PaymentStatus}
    (h : row.status ∈ statuses) : repo.Lists (single row) statuses 1 [row] := by
  have hrows : ((single row).ids.filterMap (single row).records).filter (·.status ∈ statuses) =
      [row] := by
    show ([row.id].filterMap (single row).records).filter _ = _
    rw [List.filterMap_cons_some (single_records row), List.filterMap_nil]
    simp [h]
  cases repo with
  | inMemory =>
    show [row] = (single row).listByStatus statuses 1
    unfold PaymentPlatform.listByStatus
    rw [hrows, List.mergeSort_singleton]
    rfl
  | sql => exact ⟨[row], hrows ▸ .refl _, List.pairwise_singleton _ _, rfl⟩
  | mongo => exact ⟨[row], hrows ▸ .refl _, List.pairwise_singleton _ _, rfl⟩

/-- A batch that handles the one record, which has failed. -/
theorem exec_processBatch {row : TransactionRecord} (hfailed : row.status = .failed)
    {rs : List (Reply Answer PaymentError)} {outcome : Except PaymentError FailedOutcome}
    {u : PaymentPlatform}
    (he : Exec repo.server 0 (handleFailedTransaction svc row) (single row) rs outcome u) :
    RetryStep svc repo (single row) (.called (.processBatch 1)
      (.served (.listByStatus [.queued, .submitted, .failed] 1) [row] :: rs)) u := by
  have hlist : repo.server.serves 0 (.listByStatus [.queued, .submitted, .failed] 1) (single row)
      [row] (single row) := ⟨lists_single (by simp [hfailed]), rfl⟩
  have hprocess : ∃ counts', Exec repo.server 0 (processTransaction svc row ⟨1, 0, 0, 0, 0, 0⟩)
      (single row) rs (.ok counts') u := by
    unfold processTransaction countingFailure
    rw [if_pos hfailed]
    cases outcome with
    | error e => exact ⟨_, Exec.handle_done he.bind_error rfl⟩
    | ok outcome =>
      cases outcome with
      | _ => exact ⟨_, Exec.handle (he.bind_done rfl)⟩
  obtain ⟨counts', hprocess⟩ := hprocess
  have hall : Exec repo.server 0 (processAll svc [row] ⟨1, 0, 0, 0, 0, 0⟩) (single row) rs
      (.ok counts') u := hprocess.bind_done rfl
  have hbatch : Exec repo.server 0 (processBatch svc 1) (single row)
      (.served (.listByStatus [.queued, .submitted, .failed] 1) [row] :: rs) (.ok counts') u :=
    (Exec.served hlist).bind hall
  exact .called (hbatch.bind_done rfl)

/-! ## Where the retries do not end -/

/-- A payout that has been signed and queued. -/
def queuedPayout : TransactionRecord :=
  { sampleTransaction with id := "3f0c9a52-6c1b-4b7e-9d5e-2a1f0c8d7e64" }

/-- The worker's write of `dead` for a payout without attempts left. -/
theorem not_retriesEnd_of_refused (hrepo : repo ≠ .inMemory) : ¬ RetriesEnd svc repo := by
  intro hend
  let row : TransactionRecord :=
    { queuedPayout with status := .failed, attempts := svc.failedRetryMax }
  have hrefuses : PaymentStatus.dead ∉ repo.statuses := by
    cases repo with
    | inMemory => exact absurd rfl hrepo
    | sql => decide
    | mongo => decide
  obtain ⟨patch, hdead, he⟩ : ∃ patch : TransactionPatch, patch.status = some .dead ∧
      Exec repo.server 0 (handleFailedTransaction svc row) (single row)
        [.served .now 0, .refused (.update .handleFailedTransaction row.id patch) (.rejected none)]
        (.error (.rejected none)) (single row) := by
    unfold handleFailedTransaction
    dsimp only
    rw [if_pos (.inr (Nat.le_refl svc.failedRetryMax))]
    exact ⟨_, rfl, (exec_now 0).bind ((Exec.refused _ _).bind_error.bind_error)⟩
  have hstep := exec_processBatch rfl he
  obtain ⟨-, haccepted⟩ := hend _ _ _ (single_keyed row) (.single hstep)
  have hmem := haccepted _ (List.mem_singleton_self _) _
    (List.mem_cons_of_mem _ (List.mem_cons_of_mem _ (List.mem_singleton_self _)))
    _ _ patch rfl hdead .dead hdead
  exact hrefuses hmem

/-- The payouts between two retries: they have a transaction to send, and no more
    attempts than a submission counts. -/
structure Retrying (svc : Service) (id : String) (row : TransactionRecord) : Prop where
  id : row.id = id
  retriable : row.retriable = true
  attempts : row.attempts ≤ svc.maxAttempts

/-- One retry: the worker queues the payout again. -/
theorem exec_retry {row : TransactionRecord} (h : Retrying svc id row)
    (hfailed : row.status = .failed) (hattempts : row.attempts < svc.failedRetryMax) :
    ∃ rs row', RetryStep svc repo (single row) (.called (.processBatch 1) rs) (single row') ∧
      rs.countP (requeues id) = 1 ∧ Retrying svc id row' ∧ row'.status = .queued := by
  obtain ⟨rfl, hretriable, hmax⟩ := h
  let time := row.updatedAt + svc.failedRetryBaseMs * 2 ^ (row.attempts - 1)
  let patch : TransactionPatch := { TransactionPatch.touch time with status := some .queued }
  have haccepts : repo.Accepts patch := by
    intro status hstatus
    obtain rfl : PaymentStatus.queued = status := Option.some.inj hstatus
    cases repo with
    | _ => decide
  have hretry : ¬ (¬ row.signedXdr.getD "" ≠ "" ∨ svc.failedRetryMax ≤ row.attempts) := by
    rintro (hnot | hspent)
    · exact hnot (of_decide_eq_true hretriable)
    · omega
  have helapsed : ¬ ((time : ℤ) - row.updatedAt <
      ((svc.failedRetryBaseMs * 2 ^ (row.attempts - 1) : ℕ) : ℤ)) := by
    show ¬ (((row.updatedAt + _ : ℕ) : ℤ) - _ < _)
    omega
  have he : Exec repo.server 0 (handleFailedTransaction svc row) (single row)
      [.served .now time, .served .now time,
        .served (.update .handleFailedTransaction row.id patch) (some (row.patched patch))]
      (.ok .retried) (single (row.patched patch)) := by
    unfold handleFailedTransaction
    dsimp only
    rw [if_neg hretry]
    refine (exec_now time).bind ?_
    rw [if_neg helapsed]
    exact (exec_now time).bind ((exec_update haccepts).bind_done rfl)
  refine ⟨_, _, exec_processBatch hfailed he, ?_, ⟨rfl, hretriable, hmax⟩, rfl⟩
  simp [requeues, Reply.effective, patch]

/-- An update of a submission that stores the payout as failed. -/
theorem exec_giveUp {row : TransactionRecord} (h : Retrying svc id row) (attempts : Option ℕ)
    (hattempts : attempts.getD row.attempts ≤ svc.maxAttempts) (message : String) :
    ∃ rs r row', Exec repo.server 0 (giveUp row attempts message) (single row) rs (.ok r)
      (single row') ∧ Retrying svc id row' ∧ row'.status = .failed := by
  obtain ⟨rfl, hretriable, -⟩ := h
  let patch : TransactionPatch :=
    { TransactionPatch.touch 0 with
      attempts := attempts
      status := some .failed
      errorMessage := some (some message) }
  have haccepts : repo.Accepts patch := by
    intro status hstatus
    obtain rfl : PaymentStatus.failed = status := Option.some.inj hstatus
    cases repo with
    | _ => decide
  have he : Exec repo.server 0 (giveUp row attempts message) (single row)
      [.served .now 0,
        .served (.update .submitQueuedTransaction row.id patch) (some (row.patched patch))]
      (.ok ⟨row.patched patch, false⟩) (single (row.patched patch)) :=
    (exec_now 0).bind ((exec_update haccepts).bind_done rfl)
  exact ⟨_, _, _, he, ⟨rfl, hretriable, hattempts⟩, rfl⟩

/-- The send is refused, unless its transaction cannot even be parsed. -/
theorem exec_sendSigned (row : TransactionRecord) (signedXdr : String) (attempts : ℕ) :
    ∃ rs e, Exec repo.server 0 (sendSigned svc row signedXdr attempts) (single row) rs (.error e)
      (single row) := by
  unfold sendSigned
  cases hparsed : svc.fromXDR signedXdr with
  | error e => exact ⟨_, e, Exec.bind_error .done⟩
  | ok _ => exact ⟨_, .rejected none, Exec.bind .done (Exec.refused _ _).bind_error⟩

/-- The submission of the payout fails, whatever its signed transaction is. -/
theorem exec_fail {row : TransactionRecord} (h : Retrying svc id row)
    (hlive : svc.liveExecution = true) (hqueued : row.status = .queued) :
    ∃ rs row', RetryStep svc repo (single row) (.called (.submitQueuedTransaction id) rs)
      (single row') ∧ Retrying svc id row' ∧ row'.status = .failed := by
  have hread : Exec repo.server 0 (requireTransaction id) (single row)
      [.served (.findById id) (some row)] (.ok row) (single row) := by
    rw [← h.id]
    exact exec_requireTransaction row
  have hretriable := of_decide_eq_true h.retriable
  -- What is left once the payout has been read.
  have hrest : ∀ signedXdr, ∃ rs r row', Exec repo.server 0
      (if svc.maxAttempts ≤ row.attempts then
        giveUp row none ("Max submit attempts reached (" ++ toString svc.maxAttempts ++ ")")
      else
        tryCatch (sendSigned svc row signedXdr (row.attempts + 1)) fun error =>
          giveUp row (some (row.attempts + 1))
            (error.message.getD "Unknown submission failure"))
      (single row) rs (.ok r) (single row') ∧ Retrying svc id row' ∧ row'.status = .failed := by
    intro signedXdr
    split_ifs with hmax
    · exact exec_giveUp h none h.attempts _
    · obtain ⟨rs, e, hsend⟩ : ∃ rs e, Exec repo.server 0
          (sendSigned svc row signedXdr (row.attempts + 1)) (single row) rs (.error e)
          (single row) := exec_sendSigned row signedXdr _
      obtain ⟨rs', r, row', he, hdone⟩ : ∃ rs r row', Exec repo.server 0
          (giveUp row (some (row.attempts + 1)) (e.message.getD "Unknown submission failure"))
          (single row) rs (.ok r) (single row') ∧ Retrying svc id row' ∧ row'.status = .failed :=
        exec_giveUp h (some (row.attempts + 1)) (Nat.lt_of_not_le hmax) _
      exact ⟨_, r, row', hsend.handle_error he, hdone⟩
  have hsubmit : ∃ rs r row', Exec repo.server 0 (submitQueuedTransaction svc id) (single row) rs
      (.ok r) (single row') ∧ Retrying svc id row' ∧ row'.status = .failed := by
    unfold submitQueuedTransaction
    cases hsigned : row.signedXdr with
    | none => exact absurd (by rw [hsigned]; rfl) hretriable
    | some signedXdr =>
      obtain ⟨rs, r, row', he, hdone⟩ := hrest signedXdr
      refine ⟨[.served (.findById id) (some row)] ++ rs, r, row', hread.bind ?_, hdone⟩
      rw [if_neg (not_not.mpr hqueued), if_neg (by simp [hlive]), hsigned]
      split
      · contradiction
      · rename_i heq
        rw [hsigned, heq] at hretriable
        exact absurd rfl hretriable
      · rename_i heq
        cases heq
        exact he
  obtain ⟨rs, r, row', he, hretrying, hfailed⟩ := hsubmit
  exact ⟨_, row', .called (he.bind_done rfl), hretrying, hfailed⟩

/-- While the attempts that a submission counts stay below `failedRetryMax`, there is no
    end to the retries of a payout whose submissions fail. -/
theorem exists_requeued (hlive : svc.liveExecution = true)
    (hbounds : svc.maxAttempts < svc.failedRetryMax) {row : TransactionRecord}
    (h : Retrying svc id row) (hqueued : row.status = .queued) (n : ℕ) :
    ∃ tr row', Run (RetryStep svc repo) (single row) tr (single row') ∧
      n ≤ requeued id tr ∧ Retrying svc id row' ∧ row'.status = .queued := by
  induction n with
  | zero => exact ⟨[], row, .nil, Nat.zero_le _, h, hqueued⟩
  | succ n ih =>
    obtain ⟨tr, row₁, hrun, hn, h₁, hqueued₁⟩ := ih
    obtain ⟨rs, row₂, hfail, h₂, hfailed₂⟩ := exec_fail h₁ hlive hqueued₁
    obtain ⟨rs', row₃, hretry, hcount, h₃, hqueued₃⟩ :=
      exec_retry h₂ hfailed₂ (Nat.lt_of_le_of_lt h₂.attempts hbounds)
    refine ⟨_, row₃, (hrun.snoc hfail).snoc hretry, ?_, h₃, hqueued₃⟩
    show n + 1 ≤ rs'.countP (requeues id) + (rs.countP (requeues id) + requeued id tr)
    omega

theorem not_retriesEnd_of_bounds (hlive : svc.liveExecution = true)
    (hbounds : svc.maxAttempts < svc.failedRetryMax) : ¬ RetriesEnd svc repo := by
  intro hend
  have hretrying : Retrying svc queuedPayout.id queuedPayout := ⟨rfl, rfl, Nat.zero_le _⟩
  obtain ⟨tr, row', hrun, hn, -⟩ :=
    exists_requeued hlive hbounds hretrying rfl (svc.failedRetryMax + 1)
  have hle := (hend _ _ _ (single_keyed queuedPayout) hrun).1 queuedPayout.id
  omega

/-- Retries end, with `dead` accepted, exactly for the repository in memory and the
    configurations in which `failedRetryMax` does not exceed `maxAttempts`, or which
    do not execute live. -/
theorem retries_end_iff (svc : Service) (repo : Repository) :
    RetriesEnd svc repo ↔ repo = .inMemory ∧
      (svc.failedRetryMax ≤ svc.maxAttempts ∨ svc.liveExecution = false) := by
  constructor
  · intro hend
    refine ⟨?_, ?_⟩
    · by_contra hrepo
      exact not_retriesEnd_of_refused hrepo hend
    · by_contra hnot
      obtain ⟨hbounds, hlive⟩ := not_or.mp hnot
      exact not_retriesEnd_of_bounds (Bool.eq_true_of_not_eq_false hlive)
        (Nat.lt_of_not_le hbounds) hend
  · rintro ⟨rfl, hbounded⟩
    exact retriesEnd_of_bounded hbounded

/-- With the defaults the databases refuse the write of `dead`; with `maxAttempts` set
    to 2 there is no end to the retries. -/
theorem not_retries_end : ¬ RetriesEnd sampleConfig .mongo ∧ ¬ RetriesEnd sampleConfig .sql ∧
    ¬ RetriesEnd { sampleConfig with maxAttempts := 2 } .inMemory :=
  ⟨not_retriesEnd_of_refused (by decide), not_retriesEnd_of_refused (by decide),
    not_retriesEnd_of_bounds rfl (by decide)⟩

end

end InverseArena.Backend.Payments
