import InverseArena.Backend.Payments.Calls
import InverseArena.Backend.Payments.Repositories
import Mathlib.Data.Set.Insert

/-!
# What a retry costs

The credit of a record is how often the payment worker can still queue it again. When
`failedRetryMax ≤ maxAttempts` no request of a call raises it, and each retry costs one.

Results:
* `worksOn_call`: whatever becomes of its requests, a call queues a record again only
  out of its credit.
-/

namespace InverseArena.Backend.Payments

open Async

/-- The reply queues the record again. -/
def requeues (id : String) (r : Reply Answer PaymentError) : Bool :=
  match r.effective with
  | some (.update _ id' patch) => id' = id ∧ patch.status = some .queued
  | _ => false

/-! ## Credit -/

/-- There is a signed transaction to send. -/
def TransactionRecord.retriable (row : TransactionRecord) : Bool := row.signedXdr.getD "" ≠ ""

/-- How often the record can still be queued again before its attempts are used up. -/
def TransactionRecord.credit (failedRetryMax : ℕ) (row : TransactionRecord) : ℕ :=
  match row.status with
  | .built | .awaiting_signature => failedRetryMax - (row.attempts + 1)
  | .queued => if row.retriable then failedRetryMax - (row.attempts + 1) else 0
  | .submitted | .failed => if row.retriable then failedRetryMax - row.attempts else 0
  | .confirmed | .dead => 0

/-- The credit of the record, or of one that is still to be created. -/
def PaymentPlatform.credit (failedRetryMax : ℕ) (w : PaymentPlatform) (id : String) : ℕ :=
  match w.records id with
  | none => failedRetryMax
  | some row => row.credit failedRetryMax

variable {N : ℕ} {w w₁ w' : PaymentPlatform} {id id' : String} {row current : TransactionRecord}

theorem TransactionRecord.credit_le (row : TransactionRecord) : row.credit N ≤ N := by
  unfold credit
  split
  all_goals try split_ifs
  all_goals omega

theorem PaymentPlatform.credit_of_some (h : w.records id = some row) :
    w.credit N id = row.credit N := by
  unfold credit
  rw [h]

theorem PaymentPlatform.credit_le (w : PaymentPlatform) (id : String) : w.credit N id ≤ N := by
  unfold credit
  split
  · omega
  · exact TransactionRecord.credit_le _

/-- A program has changed records among `touched` only, and has queued the record
    `tracked` again `n` times out of its credit. -/
structure Spent (N : ℕ) (tracked : String) (touched : Set String) (w : PaymentPlatform) (n : ℕ)
    (w' : PaymentPlatform) : Prop where
  keyed : w'.Keyed
  others : ∀ id ∉ touched, w'.records id = w.records id
  paid : n + w'.credit N tracked ≤ w.credit N tracked

variable {tracked : String} {touched touched' : Set String} {n m : ℕ}

theorem Spent.refl (h : w.Keyed) : Spent N tracked touched w 0 w :=
  ⟨h, fun _ _ => rfl, by omega⟩

theorem Spent.trans (h : Spent N tracked touched w n w₁) (h' : Spent N tracked touched w₁ m w') :
    Spent N tracked touched w (n + m) w' where
  keyed := h'.keyed
  others id hid := (h'.others id hid).trans (h.others id hid)
  paid := by
    have hfirst := h.paid
    have hsecond := h'.paid
    omega

theorem Spent.mono (h : Spent N tracked touched w n w') (hsub : touched ⊆ touched') :
    Spent N tracked touched' w n w' :=
  ⟨h.keyed, fun id hid => h.others id fun hmem => hid (hsub hmem), h.paid⟩

/-- A row is replaced by one with as much credit less as has been spent. -/
theorem Spent.put (h : w.Keyed) (hmem : id ∈ touched) (hcurrent : w.records id = some current)
    (hid : row.id = current.id) (hpaid : id = tracked → n + row.credit N ≤ current.credit N)
    (hother : id ≠ tracked → n = 0) : Spent N tracked touched w n (w.put id row) where
  keyed := h.put (hid.trans (h.id hcurrent))
  others id' hnot := w.put_records_of_ne row fun heq => hnot (heq ▸ hmem)
  paid := by
    by_cases ht : id = tracked
    · subst ht
      rw [PaymentPlatform.credit_of_some (w.put_records_self id row),
        PaymentPlatform.credit_of_some hcurrent]
      exact hpaid rfl
    · have hsame : (w.put id row).credit N tracked = w.credit N tracked := by
        unfold PaymentPlatform.credit
        rw [w.put_records_of_ne row (Ne.symm ht)]
      have hn := hother ht
      omega

/-! ## What the programs spend -/

section

variable {svc : Service} {repo : Repository} {α β : Type}

/-- Only an update to `queued` queues again. -/
theorem requeues_eq_false {r : Reply Answer PaymentError}
    (h : ∀ writer patch, r.request = .update writer id patch → patch.status ≠ some .queued) :
    requeues id r = false := by
  unfold requeues
  split
  · rename_i writer id' patch heff
    rw [decide_eq_false_iff_not]
    rintro ⟨rfl, hqueued⟩
    exact h writer patch (Reply.request_of_effective heff) hqueued
  · rfl

/-- Whatever becomes of its requests, the program changes records among `touched` only,
    within the credit of the record `tracked`. -/
abbrev WorksOn (repo : Repository) (N : ℕ) (tracked : String) (touched : Set String)
    (p : Program α) (w : PaymentPlatform) : Prop :=
  Ensures repo.server 0 p w fun rs _ w' =>
    Spent N tracked touched w (rs.countP (requeues tracked)) w'

theorem worksOn_pure (h : w.Keyed) (a : α) : WorksOn repo N tracked touched (pure a) w :=
  (ensures_pure a).mpr (.refl h)

/-- A program may be followed by one that works on the same record. -/
theorem WorksOn.bind {p : Program α} {f : α → Program β} (hp : WorksOn repo N tracked touched p w)
    (hf : ∀ a w₁, w₁.Keyed → WorksOn repo N tracked touched (f a) w₁) :
    WorksOn repo N tracked touched (p >>= f) w := by
  unfold WorksOn
  rw [ensures_bind]
  refine hp.mono fun rs r w₁ h => ?_
  cases r with
  | error e => exact h
  | ok a =>
    refine (hf a w₁ h.keyed).mono fun rs' _ w' h' => ?_
    rw [List.countP_append]
    exact h.trans h'

theorem WorksOn.handle {p : Program α} {f : PaymentError → Program α}
    (hp : WorksOn repo N tracked touched p w)
    (hf : ∀ e w₁, w₁.Keyed → WorksOn repo N tracked touched (f e) w₁) :
    WorksOn repo N tracked touched (tryCatch p f) w := by
  unfold WorksOn
  rw [ensures_handle]
  refine hp.mono fun rs r w₁ h => ?_
  cases r with
  | ok a => exact h
  | error e =>
    refine (hf e w₁ h.keyed).mono fun rs' _ w' h' => ?_
    rw [List.countP_append]
    exact h.trans h'

/-- Requests that come before and neither change nor queue anything. -/
theorem WorksOn.after {p : Program α} (hp : WorksOn repo N tracked touched p w)
    {rs : List (Reply Answer PaymentError)} (hrs : rs.countP (requeues tracked) = 0) :
    Ensures repo.server 0 p w fun rs' _ w' =>
      Spent N tracked touched w ((rs ++ rs').countP (requeues tracked)) w' := by
  refine hp.mono fun rs' _ w' h => ?_
  rw [List.countP_append, hrs, Nat.zero_add]
  exact h

theorem countP_single {r : Reply Answer PaymentError}
    (h : ∀ writer patch, r.request ≠ .update writer tracked patch) :
    [r].countP (requeues tracked) = 0 := by
  rw [List.countP_singleton, requeues_eq_false fun writer patch hr => absurd hr (h writer patch)]
  rfl

theorem worksOn_now {f : ℕ → Program β} (hf : ∀ time, WorksOn repo N tracked touched (f time) w) :
    WorksOn repo N tracked touched (now >>= f) w := by
  unfold WorksOn
  rw [ensures_bind]
  refine ensures_now fun reply time hreply => ?_
  refine (hf time).after (countP_single fun writer patch h => ?_)
  rw [hreply] at h
  cases h

/-- The row is read, and the program goes on from it. -/
theorem worksOn_requireTransaction (h : w.Keyed) {f : TransactionRecord → Program β}
    (hf : ∀ row, row.id = id → w.records id = some row → WorksOn repo N tracked touched (f row) w) :
    WorksOn repo N tracked touched (requireTransaction id >>= f) w := by
  unfold WorksOn
  rw [ensures_bind]
  have hquiet : ∀ reply : Reply Answer PaymentError, reply.request = .findById id →
      [reply].countP (requeues tracked) = 0 := by
    intro reply hreply
    refine countP_single fun writer patch hr => ?_
    rw [hreply] at hr
    cases hr
  refine ensures_requireTransaction (fun reply row hreply hrow => ?_) fun reply e hreply => ?_
  · exact (hf row (h.id hrow) hrow).after (hquiet reply hreply)
  · dsimp only
    rw [hquiet reply hreply]
    exact .refl h

/-- Any other request, which changes nothing. -/
theorem worksOn_ask (h : w.Keyed) {q : Request} (hq : q.isUpdate = false)
    {f : Answer q → Program β}
    (hf : ∀ a, repo.serves 0 q w a w → WorksOn repo N tracked touched (f a) w) :
    WorksOn repo N tracked touched (ask q >>= f) w := by
  have hquiet : ∀ r : Reply Answer PaymentError, r.request = q →
      [r].countP (requeues tracked) = 0 := by
    rintro r rfl
    refine countP_single fun writer patch hr => ?_
    rw [hr] at hq
    cases hq
  unfold WorksOn ask
  rw [ensures_bind, ensures_request]
  refine ⟨?_, ?_, ?_⟩
  · intro a w' hs
    obtain rfl := Repository.serves_same 0 hq hs
    exact (hf a hs).after (hquiet _ rfl)
  · intro a e w' hs
    obtain rfl := Repository.serves_same 0 hq hs
    dsimp only
    rw [hquiet (.lost q a e) rfl]
    exact .refl h
  · intro e
    dsimp only
    rw [hquiet (.refused q e) rfl]
    exact .refl h

/-- An update within the credit of the row it is made on. -/
theorem worksOn_update (h : w.Keyed) (hmem : id ∈ touched)
    (hcurrent : w.records id = some current) {writer : Writer}
    {patch : TransactionPatch}
    (hpaid : ∀ row, repo.Stores current patch row →
      (if patch.status = some .queued then 1 else 0) + row.credit N ≤ current.credit N) :
    WorksOn repo N tracked touched (update writer id patch) w := by
  refine ensures_update hcurrent (fun reply r row hreply _ hrow => ?_) fun e => ?_
  · have hcredit := hpaid row hrow
    have hcount : [reply].countP (requeues tracked) ≤
        if patch.status = some .queued then 1 else 0 := by
      rw [List.countP_singleton]
      split_ifs with hr hq
      · exact Nat.le_refl 1
      · rw [requeues_eq_false] at hr
        · cases hr
        · intro writer' patch' hr'
          rw [hreply] at hr'
          cases hr'
          exact hq
      · exact Nat.zero_le _
      · exact Nat.zero_le _
    refine Spent.put h hmem hcurrent hrow.id (fun _ => by omega) fun hne => ?_
    refine countP_single fun writer' patch' hr => ?_
    rw [hreply] at hr
    cases hr
    exact hne rfl
  · have hcount : [Reply.refused (Request.update writer id patch) e].countP
        (requeues tracked) = 0 := rfl
    rw [hcount]
    exact .refl h

/-- An update of a record that does not exist. -/
theorem worksOn_update_absent (h : w.Keyed) (habsent : w.records id = none) {writer : Writer}
    {patch : TransactionPatch} (hnot : patch.status ≠ some .queued) :
    WorksOn repo N tracked touched (update writer id patch) w := by
  have hquiet : ∀ r : Reply Answer PaymentError, r.request = .update writer id patch →
      [r].countP (requeues tracked) = 0 := by
    intro r hr
    rw [List.countP_singleton, requeues_eq_false]
    · rfl
    · intro writer' patch' hr'
      rw [hr] at hr'
      cases hr'
      exact hnot
  have hserves : ∀ {a w'}, repo.server.serves 0 (.update writer id patch) w a w' →
      a = none ∧ w' = w := by
    intro a w' ⟨_, hs⟩
    rw [habsent] at hs
    exact hs
  unfold WorksOn update ask
  rw [ensures_bind, ensures_request]
  refine ⟨?_, ?_, ?_⟩
  · intro a w' hs
    obtain ⟨rfl, rfl⟩ := hserves hs
    dsimp only
    rw [ensures_orThrow]
    refine ⟨fun _ h => (nomatch h), fun _ => ?_⟩
    rw [List.append_nil, hquiet (.served _ _) rfl]
    exact .refl h
  · intro a e w' hs
    obtain ⟨rfl, rfl⟩ := hserves hs
    dsimp only
    rw [hquiet (.lost _ _ e) rfl]
    exact .refl h
  · intro e
    dsimp only
    rw [hquiet (.refused _ e) rfl]
    exact .refl h

end

/-! ## The credit of what the programs store -/

section

variable {repo : Repository} {patch : TransactionPatch}

theorem Repository.Stores.retriable (h : repo.Stores current patch row) :
    row.retriable = current.retriable := by
  obtain ⟨updatedAt, rfl⟩ := h.patched
  rfl

theorem Repository.Stores.status_eq (h : repo.Stores current patch row) {status : PaymentStatus}
    (hpatch : patch.status = some status) : row.status = status := by
  obtain ⟨updatedAt, rfl⟩ := h.patched
  show patch.status.getD _ = _
  rw [hpatch]
  rfl

theorem Repository.Stores.attempts_eq (h : repo.Stores current patch row) :
    row.attempts = patch.attempts.getD current.attempts := by
  obtain ⟨updatedAt, rfl⟩ := h.patched
  rfl

/-- A record that is given up without another attempt: it has nothing to send, or no
    attempts left. -/
theorem credit_givenUp (h : repo.Stores current patch row) (hqueued : current.status = .queued)
    (hstatus : patch.status = some .failed) (hattempts : patch.attempts = none)
    (hspent : current.retriable = false ∨ N ≤ current.attempts) :
    row.credit N ≤ current.credit N := by
  simp only [TransactionRecord.credit, h.status_eq hstatus, h.retriable, h.attempts_eq, hattempts,
    hqueued, Option.getD_none]
  obtain hretriable | hN := hspent
  · rw [hretriable]
    exact Nat.le_refl 0
  · split_ifs
    · omega
    · exact Nat.le_refl 0

/-- A submission: an attempt more, and the record is still queued, submitted or failed. -/
theorem credit_attempted (hqueued : current.status = .queued)
    (hstatus : row.status ∈ [PaymentStatus.queued, .submitted, .failed])
    (hattempts : row.attempts = current.attempts + 1)
    (hretriable : row.retriable = current.retriable) : row.credit N ≤ current.credit N := by
  simp only [List.mem_cons, List.not_mem_nil, or_false] at hstatus
  obtain hstatus | hstatus | hstatus := hstatus
  all_goals
    simp only [TransactionRecord.credit, hstatus, hretriable, hattempts, hqueued]
    split_ifs
    all_goals omega

/-- A submitted record that is confirmed or has failed. -/
theorem credit_answered (h : repo.Stores current patch row)
    (hsubmitted : current.status = .submitted)
    (hstatus : patch.status = some .confirmed ∨ patch.status = some .failed)
    (hattempts : patch.attempts = none) : row.credit N ≤ current.credit N := by
  obtain hstatus | hstatus := hstatus
  · simp only [TransactionRecord.credit, h.status_eq hstatus]
    exact Nat.zero_le _
  · simp only [TransactionRecord.credit, h.status_eq hstatus, h.retriable, h.attempts_eq,
      hattempts, hsubmitted, Option.getD_none]
    exact Nat.le_refl _

/-- A failed record that is queued again pays for it. -/
theorem credit_requeued (h : repo.Stores current patch row) (hfailed : current.status = .failed)
    (hstatus : patch.status = some .queued) (hattempts : patch.attempts = none)
    (hretriable : current.retriable = true) (hN : current.attempts < N) :
    1 + row.credit N ≤ current.credit N := by
  simp only [TransactionRecord.credit, h.status_eq hstatus, h.retriable, h.attempts_eq, hattempts,
    hfailed, hretriable, Option.getD_none, if_true]
  omega

theorem credit_buried (h : repo.Stores current patch row) (hstatus : patch.status = some .dead) :
    row.credit N ≤ current.credit N := by
  simp only [TransactionRecord.credit, h.status_eq hstatus]
  exact Nat.zero_le _

end

/-! ## What the calls spend -/

section

variable {svc : Service} {repo : Repository} {α β : Type}

/-- The bounds that make the submission count every attempt that a retry leads to. -/
def Bounded (svc : Service) : Prop :=
  svc.failedRetryMax ≤ svc.maxAttempts ∨ svc.liveExecution = false

theorem worksOn_giveUp (h : w.Keyed) (hmem : current.id ∈ touched)
    (hcurrent : w.records current.id = some current) (hqueued : current.status = .queued) (message : String)
    (hspent : current.retriable = false ∨ N ≤ current.attempts) :
    WorksOn repo N tracked touched (giveUp current none message) w := by
  unfold giveUp
  refine worksOn_now fun time => WorksOn.bind ?_ fun failed w₁ h₁ => worksOn_pure h₁ _
  refine worksOn_update h hmem hcurrent fun row hrow => ?_
  rw [if_neg (by simp), Nat.zero_add]
  exact credit_givenUp hrow hqueued rfl rfl hspent

/-- A submission has been attempted from the state `w`: nothing is queued again, and the
    record can still be sent if it could. -/
structure Attempted (N : ℕ) (tracked : String) (current : TransactionRecord)
    (w : PaymentPlatform) (n : ℕ) (w₁ : PaymentPlatform) : Prop where
  none : n = 0
  spent : Spent N tracked {current.id} w n w₁
  stored : ∃ row, w₁.records current.id = some row ∧ row.retriable = current.retriable

theorem Attempted.refl (h : w.Keyed) (hcurrent : w.records current.id = some current) :
    Attempted N tracked current w 0 w := ⟨rfl, .refl h, current, hcurrent, rfl⟩

/-- An update that a submission makes, on the row it has read or on what an earlier
    update has left of it. -/
theorem Attempted.update (h : Attempted N tracked current w 0 w₁)
    (hcurrent : w.records current.id = some current) (hqueued : current.status = .queued)
    {writer : Writer} {patch : TransactionPatch}
    (hstatus : ∀ row₁, w₁.records current.id = some row₁ →
      patch.status.getD row₁.status ∈ [PaymentStatus.queued, .submitted, .failed])
    (hnot : patch.status ≠ some .queued)
    (hattempts : patch.attempts = some (current.attempts + 1)) :
    Ensures repo.server 0 (update writer current.id patch) w₁ fun rs _ w' =>
      Attempted N tracked current w (rs.countP (requeues tracked)) w' := by
  obtain ⟨row₁, hrow₁, hretriable⟩ := h.stored
  refine ensures_update hrow₁ (fun reply r row hreply _ hrow => ?_) fun e => h
  have hcount : [reply].countP (requeues tracked) = 0 := by
    rw [List.countP_singleton, requeues_eq_false]
    · rfl
    · intro writer' patch' hr
      rw [hreply] at hr
      cases hr
      exact hnot
  have hsame : row.retriable = current.retriable := hrow.retriable.trans hretriable
  have hcredit : row.credit N ≤ current.credit N := by
    have hrowStatus : row.status = patch.status.getD row₁.status := by
      obtain ⟨updatedAt, rfl⟩ := hrow.patched
      rfl
    refine credit_attempted hqueued ?_ ?_ hsame
    · rw [hrowStatus]
      exact hstatus row₁ hrow₁
    · rw [hrow.attempts_eq, hattempts]
      rfl
  rw [hcount]
  have hkeyed := h.spent.keyed.put (hrow.id.trans (h.spent.keyed.id hrow₁))
  refine ⟨rfl, ⟨hkeyed, fun id' hne => ?_, ?_⟩, row, w₁.put_records_self _ row, hsame⟩
  · rw [w₁.put_records_of_ne row hne]
    exact h.spent.others id' hne
  · by_cases ht : tracked = current.id
    · subst ht
      rw [PaymentPlatform.credit_of_some (w₁.put_records_self _ row),
        PaymentPlatform.credit_of_some hcurrent]
      omega
    · have hsame₁ : (w₁.put current.id row).credit N tracked = w₁.credit N tracked := by
        unfold PaymentPlatform.credit
        rw [w₁.put_records_of_ne row ht]
      have hbefore := h.spent.paid
      omega

theorem attempted_now {f : ℕ → Program β}
    (hf : ∀ time, Ensures repo.server 0 (f time) w₁ fun rs _ w' =>
      Attempted N tracked current w (rs.countP (requeues tracked)) w') :
    Ensures repo.server 0 (now >>= f) w₁ fun rs _ w' =>
      Attempted N tracked current w (rs.countP (requeues tracked)) w' := by
  rw [ensures_bind]
  refine ensures_now fun reply time hreply => (hf time).mono fun rs _ w' h' => ?_
  rw [List.countP_append, countP_single, Nat.zero_add]
  · exact h'
  · intro writer patch hr
    rw [hreply] at hr
    cases hr

/-- What is returned after an attempt. -/
theorem attempted_bind {p : Program α} (hp : Ensures repo.server 0 p w₁ fun rs _ w' =>
      Attempted N tracked current w (rs.countP (requeues tracked)) w') (f : α → β) :
    Ensures repo.server 0 (p >>= fun a => pure (f a)) w₁ fun rs _ w' =>
      Attempted N tracked current w (rs.countP (requeues tracked)) w' := by
  rw [ensures_bind]
  refine hp.mono fun rs r w' h => ?_
  cases r with
  | error e => exact h
  | ok a =>
    dsimp only
    rw [ensures_pure, List.append_nil]
    exact h

theorem attempted_recordSubmission (h : w.Keyed) (hcurrent : w.records current.id = some current)
    (hqueued : current.status = .queued) (sendResult : SendResponse) :
    Ensures repo.server 0 (recordSubmission current (current.attempts + 1) sendResult) w
      fun rs _ w' => Attempted N tracked current w (rs.countP (requeues tracked)) w' := by
  have hrefl : Attempted N tracked current w 0 w := .refl h hcurrent
  have hstatus : ∀ {patch : TransactionPatch},
      patch.status.getD .queued ∈ [PaymentStatus.queued, .submitted, .failed] →
      ∀ row₁, w.records current.id = some row₁ →
        patch.status.getD row₁.status ∈ [PaymentStatus.queued, .submitted, .failed] := by
    intro patch hpatch row₁ hrow₁
    obtain rfl : current = row₁ := Option.some.inj (hcurrent.symm.trans hrow₁)
    rw [hqueued]
    exact hpatch
  unfold recordSubmission
  split
  all_goals
    refine attempted_now fun time => attempted_bind (hrefl.update hcurrent hqueued ?_ ?_ rfl) _
    · exact hstatus (by simp [TransactionPatch.touch])
    · simp [TransactionPatch.touch]

theorem attempted_sendSigned (h : w.Keyed) (hcurrent : w.records current.id = some current)
    (hqueued : current.status = .queued) (signedXdr : String) :
    Ensures repo.server 0 (sendSigned svc current signedXdr (current.attempts + 1)) w
      fun rs _ w' => Attempted N tracked current w (rs.countP (requeues tracked)) w' := by
  have hrefl : Attempted N tracked current w 0 w := .refl h hcurrent
  unfold sendSigned
  rw [ensures_bind, ensures_done]
  cases svc.fromXDR signedXdr with
  | error e => exact hrefl
  | ok _ =>
    show Ensures _ _ (ask _ >>= _) _ _
    unfold ask
    rw [ensures_bind, ensures_request]
    refine ⟨?_, ?_, fun e => hrefl⟩
    · rintro fired w' rfl
      cases fired with
      | circuitOpen => exact (ensures_pure _).mpr hrefl
      | result sendResult => exact attempted_recordSubmission h hcurrent hqueued sendResult
    · rintro fired e w' rfl
      exact hrefl

/-- A submission that fails is given up with the attempt counted. -/
theorem worksOn_send (h : w.Keyed) (hmem : current.id ∈ touched)
    (hcurrent : w.records current.id = some current)
    (hqueued : current.status = .queued) (signedXdr : String)
    (message : PaymentError → String) :
    WorksOn repo N tracked touched
      (tryCatch (sendSigned svc current signedXdr (current.attempts + 1)) fun error =>
        giveUp current (some (current.attempts + 1)) (message error)) w := by
  have hsub : ({current.id} : Set String) ⊆ touched := Set.singleton_subset_iff.mpr hmem
  unfold WorksOn
  rw [ensures_handle]
  have hsend : Ensures repo.server 0 (sendSigned svc current signedXdr (current.attempts + 1)) w
      fun rs _ w₁ => Attempted N tracked current w (rs.countP (requeues tracked)) w₁ :=
    attempted_sendSigned h hcurrent hqueued signedXdr
  refine hsend.mono fun rs r w₁ h₁ => ?_
  cases r with
  | ok result => exact h₁.spent.mono hsub
  | error e =>
    have hnone := h₁.none
    rw [hnone] at h₁
    have hgiveUp : Ensures repo.server 0
        (giveUp current (some (current.attempts + 1)) (message e)) w₁ fun rs' _ w' =>
          Attempted N tracked current w (rs'.countP (requeues tracked)) w' := by
      unfold giveUp
      refine attempted_now fun time => attempted_bind (h₁.update hcurrent hqueued ?_ ?_ rfl) _
      · intro row₁ _
        simp
      · simp
    refine hgiveUp.mono fun rs' _ w' h' => ?_
    rw [List.countP_append, hnone, Nat.zero_add]
    exact h'.spent.mono hsub

theorem worksOn_submitQueuedTransaction (hbounded : Bounded svc) (h : w.Keyed)
    (hmem : id ∈ touched) :
    WorksOn repo svc.failedRetryMax tracked touched (submitQueuedTransaction svc id) w := by
  unfold submitQueuedTransaction
  refine worksOn_requireTransaction h fun current hid hcurrent => ?_
  subst hid
  split
  · exact worksOn_pure h _
  rename_i hstatus
  split
  · exact worksOn_pure h _
  rename_i hlive
  have hqueued : current.status = .queued := not_not.mp hstatus
  split
  · rename_i hsigned
    refine worksOn_giveUp h hmem hcurrent hqueued _ (.inl ?_)
    simp [TransactionRecord.retriable, hsigned]
  · rename_i hsigned
    refine worksOn_giveUp h hmem hcurrent hqueued _ (.inl ?_)
    simp [TransactionRecord.retriable, hsigned]
  · split
    · refine worksOn_giveUp h hmem hcurrent hqueued _ (.inr ?_)
      obtain hN | hnot := hbounded
      · omega
      · exact absurd hnot hlive
    · exact worksOn_send h hmem hcurrent hqueued _ _

theorem worksOn_confirmSubmittedTransaction (h : w.Keyed) (hmem : id ∈ touched) :
    WorksOn repo N tracked touched (confirmSubmittedTransaction id) w := by
  unfold confirmSubmittedTransaction
  refine worksOn_requireTransaction h fun current hid hcurrent => ?_
  subst hid
  split
  · exact worksOn_pure h _
  rename_i hstatus
  have hsubmitted : current.status = .submitted := not_not.mp hstatus
  have hupdate : ∀ {patch : TransactionPatch},
      patch.status = some .confirmed ∨ patch.status = some .failed → patch.attempts = none →
      WorksOn repo N tracked touched
        (update .confirmSubmittedTransaction current.id patch) w := by
    intro patch hpatch hattempts
    refine worksOn_update h hmem hcurrent fun row hrow => ?_
    have hnot : patch.status ≠ some .queued := by
      obtain hpatch | hpatch := hpatch
      · rw [hpatch]
        simp
      · rw [hpatch]
        simp
    rw [if_neg hnot, Nat.zero_add]
    exact credit_answered hrow hsubmitted hpatch hattempts
  split
  · exact worksOn_pure h _
  · exact worksOn_pure h _
  · refine worksOn_ask h rfl fun fired _ => ?_
    match fired with
    | .circuitOpen => exact worksOn_pure h _
    | .result .NOT_FOUND => exact worksOn_pure h _
    | .result .SUCCESS =>
      exact worksOn_now fun _ => worksOn_now fun _ => hupdate (.inl rfl) rfl
    | .result (.FAILED _) => exact worksOn_now fun _ => hupdate (.inr rfl) rfl

theorem worksOn_pollCurrent (polls : ℕ) (h : w.Keyed) :
    WorksOn repo N tracked Set.univ (pollCurrent current polls) w := by
  induction polls generalizing current w with
  | zero => exact worksOn_pure h _
  | succ polls ih =>
    refine WorksOn.bind (worksOn_confirmSubmittedTransaction h (Set.mem_univ _))
      fun refreshed w₁ h₁ => ?_
    split_ifs
    · exact worksOn_pure h₁ _
    · exact ih h₁

theorem worksOn_pollConfirmation (h : w.Keyed) :
    WorksOn repo N tracked Set.univ (pollConfirmation svc id) w :=
  worksOn_requireTransaction h fun _ _ _ => worksOn_pollCurrent _ h

/-- The worker pays for each retry, and does not retry beyond `failedRetryMax`. -/
theorem worksOn_handleFailedTransaction (h : w.Keyed) (hmem : current.id ∈ touched)
    (hcurrent : w.records current.id = some current) (hfailed : current.status = .failed) :
    WorksOn repo svc.failedRetryMax tracked touched (handleFailedTransaction svc current) w := by
  unfold handleFailedTransaction
  dsimp only
  split
  · refine worksOn_now fun time => WorksOn.bind ?_ fun _ w₁ h₁ => worksOn_pure h₁ _
    refine worksOn_update h hmem hcurrent fun row hrow => ?_
    rw [if_neg (by simp), Nat.zero_add]
    exact credit_buried hrow rfl
  · rename_i hretry
    obtain ⟨hretriable, hattempts⟩ := not_or.mp hretry
    refine worksOn_now fun time => ?_
    split
    · exact worksOn_pure h _
    · refine worksOn_now fun time' => WorksOn.bind ?_ fun _ w₁ h₁ => worksOn_pure h₁ _
      refine worksOn_update h hmem hcurrent fun row hrow => ?_
      rw [if_pos rfl]
      refine credit_requeued hrow hfailed rfl rfl ?_ (Nat.lt_of_not_le hattempts)
      exact decide_eq_true (not_not.mp hretriable)

theorem worksOn_processTransaction (hbounded : Bounded svc) (h : w.Keyed)
    (hmem : current.id ∈ touched) (hcurrent : w.records current.id = some current)
    (counts : PaymentWorkerResult) : WorksOn repo svc.failedRetryMax tracked touched
      (processTransaction svc current counts) w := by
  unfold processTransaction countingFailure
  refine WorksOn.handle ?_ fun e w₁ h₁ => worksOn_pure h₁ _
  split
  · rename_i hfailed
    refine WorksOn.bind (worksOn_handleFailedTransaction h hmem hcurrent hfailed)
      fun outcome w₁ h₁ => ?_
    cases outcome with
    | _ => exact worksOn_pure h₁ _
  split
  · refine WorksOn.bind (worksOn_submitQueuedTransaction hbounded h hmem) fun result w₁ h₁ => ?_
    split
    · refine WorksOn.handle ?_ fun e w₂ h₂ => worksOn_pure h₂ _
      dsimp only
      split
      · exact worksOn_ask h₁ rfl fun _ _ => worksOn_pure h₁ _
      · exact worksOn_pure h₁ _
    · exact worksOn_pure h₁ _
  split
  · exact worksOn_pure h _
  · refine WorksOn.bind (worksOn_confirmSubmittedTransaction h hmem) fun refreshed w₁ h₁ => ?_
    split_ifs
    · exact worksOn_pure h₁ _
    · exact worksOn_pure h₁ _
    · exact worksOn_pure h₁ _

/-- The rows that are left of a batch are still as they have been listed. -/
theorem worksOn_processAll (hbounded : Bounded svc) (pending : List TransactionRecord)
    (hnodup : (pending.map (·.id)).Nodup) (h : w.Keyed)
    (hpending : ∀ row ∈ pending, w.records row.id = some row) (counts : PaymentWorkerResult) :
    WorksOn repo svc.failedRetryMax tracked Set.univ (processAll svc pending counts) w := by
  induction pending generalizing w counts with
  | nil => exact worksOn_pure h _
  | cons transaction pending ih =>
    rw [List.map_cons, List.nodup_cons] at hnodup
    obtain ⟨hfresh, hnodup⟩ := hnodup
    unfold processAll WorksOn
    rw [ensures_bind]
    have hfirst : WorksOn repo svc.failedRetryMax tracked {transaction.id}
        (processTransaction svc transaction counts) w :=
      worksOn_processTransaction hbounded h (Set.mem_singleton _)
        (hpending transaction List.mem_cons_self) counts
    refine hfirst.mono fun rs r w₁ h₁ => ?_
    cases r with
    | error e => exact h₁.mono (Set.subset_univ _)
    | ok counts' =>
      refine (ih hnodup h₁.keyed (fun row hrow => ?_) counts').mono fun rs' _ w' h' => ?_
      · have hne : row.id ∉ ({transaction.id} : Set String) := by
          intro heq
          exact hfresh (List.mem_map.mpr ⟨row, hrow, heq⟩)
        rw [h₁.others row.id hne]
        exact hpending row (List.mem_cons_of_mem _ hrow)
      · rw [List.countP_append]
        exact (h₁.mono (Set.subset_univ _)).trans h'

theorem worksOn_processBatch (hbounded : Bounded svc) (h : w.Keyed) (limit : ℕ) :
    WorksOn repo svc.failedRetryMax tracked Set.univ (processBatch svc limit) w := by
  unfold processBatch
  refine worksOn_ask h rfl fun pending hs => ?_
  exact worksOn_processAll hbounded pending (hs.1.nodup h) h (fun row hrow => hs.1.mem h hrow) _

theorem worksOn_reconcile (h : w.Keyed) (job : Job) :
    WorksOn repo N tracked Set.univ (reconcile job) w := by
  refine WorksOn.handle ?_ fun err w₁ h₁ => ?_
  · refine WorksOn.bind (worksOn_confirmSubmittedTransaction h (Set.mem_univ _))
      fun tx w₁ h₁ => ?_
    unfold WorksOn
    rw [ensures_check]
    exact ⟨fun _ => .refl h₁, fun _ => .refl h₁⟩
  · unfold onFailed
    dsimp only
    split_ifs
    · exact worksOn_pure h₁ _
    · refine worksOn_now fun time => WorksOn.bind ?_ fun _ w₂ h₂ => worksOn_pure h₂ _
      cases hcurrent : w₁.records job.transactionId with
      | none => exact worksOn_update_absent h₁ hcurrent (by simp)
      | some current =>
        refine worksOn_update h₁ (Set.mem_univ _) hcurrent fun row hrow => ?_
        rw [if_neg (by simp), Nat.zero_add]
        exact credit_buried hrow rfl

theorem worksOn_call (hbounded : Bounded svc) (h : w.Keyed) (c : PaymentCall) :
    WorksOn repo svc.failedRetryMax tracked Set.univ (c.program svc) w := by
  cases c with
  | processBatch limit =>
    exact (worksOn_processBatch hbounded h limit).bind fun _ w₁ h₁ => worksOn_pure h₁ _
  | submitQueuedTransaction transactionId =>
    exact (worksOn_submitQueuedTransaction hbounded h (Set.mem_univ _)).bind
      fun _ w₁ h₁ => worksOn_pure h₁ _
  | confirmSubmittedTransaction transactionId =>
    exact (worksOn_confirmSubmittedTransaction h (Set.mem_univ _)).bind
      fun _ w₁ h₁ => worksOn_pure h₁ _
  | pollConfirmation transactionId =>
    exact (worksOn_pollConfirmation h).bind fun _ w₁ h₁ => worksOn_pure h₁ _
  | reconcile job => exact worksOn_reconcile h job

end

end InverseArena.Backend.Payments
