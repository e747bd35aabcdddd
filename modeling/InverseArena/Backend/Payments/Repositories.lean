import InverseArena.Backend.Payments.Platform
import InverseArena.Library.Sequential

/-!
# The three repositories of transaction records

`backend/src/repositories/inMemoryTransactionRepository.ts`,
`sqlTransactionRepository.ts` over `db/transactionsTable.sql`, and
`mongoTransactionRepository.ts` over `db/models/transaction.model.ts`, as they serve
the requests of the payment service when its calls run one after another. The RPC
server may answer anything.

Results:
* `ensures_requireTransaction`, `ensures_update`, `ensures_now`: what a program
  learns and does with each of its requests.
-/

namespace InverseArena.Backend.Payments

open Async

/-- The implementations of `TransactionRepository`. -/
inductive Repository where
  | inMemory | sql | mongo
  deriving DecidableEq, Repr

namespace Repository

/-- The statuses that can be stored: any in memory; those of the constraint
    `chk_transactions_status` in SQL; those of the schema's `enum` in MongoDB, whose
    updates run the validators. -/
def statuses : Repository → List PaymentStatus
  | inMemory => [.built, .queued, .awaiting_signature, .submitted, .confirmed, .failed, .dead]
  | sql => [.built, .queued, .awaiting_signature, .submitted, .confirmed, .failed]
  | mongo => [.built, .queued, .awaiting_signature, .submitted, .confirmed, .failed]

/-- The update passes the checks of the store. -/
def Accepts (repo : Repository) (patch : TransactionPatch) : Prop :=
  ∀ status ∈ patch.status, status ∈ repo.statuses

instance (repo : Repository) (patch : TransactionPatch) : Decidable (repo.Accepts patch) :=
  inferInstanceAs (Decidable (∀ status ∈ patch.status, status ∈ repo.statuses))

/-- The row that the update leaves: the databases take the time of the update from
    their own clocks. -/
def Stores (repo : Repository) (current : TransactionRecord) (patch : TransactionPatch)
    (row : TransactionRecord) : Prop :=
  match repo with
  | inMemory => row = current.patched patch
  | sql | mongo => ∃ updatedAt, row = { current.patched patch with updatedAt := updatedAt }

/-- The answers to `listByStatus`: the oldest first, and in memory those of the same
    age as they were inserted. -/
def Lists (repo : Repository) (w : PaymentPlatform) (statuses : List PaymentStatus) (limit : ℕ)
    (rows : List TransactionRecord) : Prop :=
  match repo with
  | inMemory => rows = w.listByStatus statuses limit
  | sql | mongo => ∃ sorted : List TransactionRecord,
      sorted.Perm ((w.ids.filterMap w.records).filter (·.status ∈ statuses)) ∧
      sorted.Pairwise (fun a b => a.createdAt ≤ b.createdAt) ∧ rows = sorted.take limit

end Repository

namespace PaymentPlatform

/-- The store with another row for `id`. -/
def put (w : PaymentPlatform) (id : String) (row : TransactionRecord) : PaymentPlatform :=
  { w with records := Function.update w.records id (some row) }

@[simp] theorem put_ids (w : PaymentPlatform) (id : String) (row : TransactionRecord) :
    (w.put id row).ids = w.ids := rfl

@[simp] theorem put_records_self (w : PaymentPlatform) (id : String) (row : TransactionRecord) :
    (w.put id row).records id = some row := Function.update_self ..

theorem put_records_of_ne (w : PaymentPlatform) {id id' : String} (row : TransactionRecord)
    (h : id' ≠ id) : (w.put id row).records id' = w.records id' := Function.update_of_ne h ..

/-- Rows are stored under their ids, each once. -/
structure Keyed (w : PaymentPlatform) : Prop where
  nodup : w.ids.Nodup
  id : ∀ {id row}, w.records id = some row → row.id = id

theorem Keyed.put {w : PaymentPlatform} (h : w.Keyed) {id : String} {row : TransactionRecord}
    (hid : row.id = id) : (w.put id row).Keyed where
  nodup := h.nodup
  id := by
    intro id' row' hrow'
    by_cases hne : id' = id
    · subst hne
      rw [put_records_self] at hrow'
      cases hrow'
      exact hid
    · rw [put_records_of_ne w row hne] at hrow'
      exact h.id hrow'

end PaymentPlatform

/-- The request is an update. -/
def Request.isUpdate : Request → Bool
  | update _ _ _ => true
  | _ => false

namespace Repository

/-- What serving a request does. -/
def serves (repo : Repository) (_ : ℕ) :
    (q : Request) → PaymentPlatform → Answer q → PaymentPlatform → Prop
  | .now, w, _, w' => w' = w
  | .findById id, w, a, w' => a = w.records id ∧ w' = w
  | .listByStatus statuses limit, w, a, w' => repo.Lists w statuses limit a ∧ w' = w
  | .update _ id patch, w, a, w' => repo.Accepts patch ∧
    match w.records id with
    | none => a = none ∧ w' = w
    | some current => ∃ row, repo.Stores current patch row ∧ a = some row ∧ w' = w.put id row
  | .sendTransaction _, w, _, w' => w' = w
  | .getTransaction _, w, _, w' => w' = w
  | .addConfirmJob _, w, _, w' => w' = w

/-- The repository and an RPC server that may answer anything. -/
def server (repo : Repository) : Server Answer PaymentPlatform Empty where
  serves := repo.serves
  moves _ _ _ := False

variable {repo : Repository} {w : PaymentPlatform}

/-- An update leaves the patched row, whenever it says it was made. -/
theorem Stores.patched {current row : TransactionRecord} {patch : TransactionPatch}
    (h : repo.Stores current patch row) :
    ∃ updatedAt, row = { current.patched patch with updatedAt := updatedAt } := by
  cases repo with
  | inMemory => exact ⟨patch.updatedAt, h⟩
  | sql => exact h
  | mongo => exact h

theorem Stores.id {current row : TransactionRecord} {patch : TransactionPatch}
    (h : repo.Stores current patch row) : row.id = current.id := by
  obtain ⟨updatedAt, rfl⟩ := h.patched
  rfl

/-- Only updates change the records. -/
theorem serves_same (i : ℕ) {q : Request} {a : Answer q} {w' : PaymentPlatform}
    (hq : q.isUpdate = false) (h : repo.serves i q w a w') : w' = w := by
  cases q with
  | now => exact h
  | findById id => exact h.2
  | listByStatus statuses limit => exact h.2
  | update writer id patch => cases hq
  | sendTransaction signedXdr => exact h
  | getTransaction txHash => exact h
  | addConfirmJob transactionId => exact h

/-- What is listed is stored, each row once. -/
theorem Lists.sublist {statuses : List PaymentStatus} {limit : ℕ} {rows : List TransactionRecord}
    (h : repo.Lists w statuses limit rows) : ∃ sorted : List TransactionRecord,
      sorted.Perm ((w.ids.filterMap w.records).filter (·.status ∈ statuses)) ∧
        rows = sorted.take limit := by
  cases repo with
  | inMemory => exact ⟨_, List.mergeSort_perm _ _, h⟩
  | sql =>
    obtain ⟨sorted, hperm, -, hrows⟩ := h
    exact ⟨sorted, hperm, hrows⟩
  | mongo =>
    obtain ⟨sorted, hperm, -, hrows⟩ := h
    exact ⟨sorted, hperm, hrows⟩

theorem Lists.mem {statuses : List PaymentStatus} {limit : ℕ} {rows : List TransactionRecord}
    (h : repo.Lists w statuses limit rows) (hw : w.Keyed) {row : TransactionRecord}
    (hrow : row ∈ rows) : w.records row.id = some row := by
  obtain ⟨sorted, hperm, rfl⟩ := h.sublist
  have hmem := hperm.mem_iff.mp (List.mem_of_mem_take hrow)
  obtain ⟨id, -, hstored⟩ := List.mem_filterMap.mp (List.mem_filter.mp hmem).1
  rw [hw.id hstored]
  exact hstored

theorem Lists.nodup {statuses : List PaymentStatus} {limit : ℕ} {rows : List TransactionRecord}
    (h : repo.Lists w statuses limit rows) (hw : w.Keyed) : (rows.map (·.id)).Nodup := by
  obtain ⟨sorted, hperm, rfl⟩ := h.sublist
  have hstored : ((w.ids.filterMap w.records).map (·.id)).Nodup := by
    have hsub : ((w.ids.filterMap w.records).map (·.id)).Sublist w.ids := by
      generalize w.ids = ids
      induction ids with
      | nil => exact List.Sublist.refl []
      | cons id ids ih =>
        cases hrow : w.records id with
        | none =>
          rw [List.filterMap_cons_none hrow]
          exact ih.cons id
        | some row =>
          rw [List.filterMap_cons_some hrow, List.map_cons, hw.id hrow]
          exact ih.cons_cons id
    exact hsub.nodup hw.nodup
  have hsub : ((w.ids.filterMap w.records).filter (·.status ∈ statuses)).Sublist
      (w.ids.filterMap w.records) := List.filter_sublist
  have hfiltered := hstored.sublist (hsub.map (·.id))
  exact ((hperm.map (·.id)).nodup_iff.mpr hfiltered).sublist ((List.take_sublist ..).map _)

end Repository

/-! ## What a program learns and does -/

section

variable {repo : Repository} {w : PaymentPlatform} {i : ℕ}

/-- A reading of the clock, which changes nothing. -/
theorem ensures_now {Q : List (Reply Answer PaymentError) → Except PaymentError ℕ →
      PaymentPlatform → Prop}
    (h : ∀ reply time, reply.request = .now → Q [reply] (.ok time) w) :
    Ensures repo.server i now w Q := by
  unfold now ask
  rw [ensures_handle, ensures_request]
  refine ⟨?_, ?_, ?_⟩
  · rintro time w' rfl
    exact h _ _ rfl
  · rintro time e w' rfl
    rw [ensures_pure]
    exact h _ _ rfl
  · intro e
    rw [ensures_pure]
    exact h _ _ rfl

/-- `requireTransaction` returns the row as it is, or throws. -/
theorem ensures_requireTransaction {id : String}
    {Q : List (Reply Answer PaymentError) → Except PaymentError TransactionRecord →
      PaymentPlatform → Prop}
    (hok : ∀ reply row, reply.request = .findById id → w.records id = some row →
      Q [reply] (.ok row) w)
    (herr : ∀ reply e, reply.request = .findById id → Q [reply] (.error e) w) :
    Ensures repo.server i (requireTransaction id) w Q := by
  unfold requireTransaction ask
  rw [ensures_bind, ensures_request]
  refine ⟨?_, ?_, ?_⟩
  · rintro a w' ⟨ha, rfl⟩
    dsimp only
    rw [ensures_orThrow]
    refine ⟨?_, ?_⟩
    · rintro row rfl
      exact hok _ _ rfl ha.symm
    · intro _
      exact herr _ _ rfl
  · rintro a e w' ⟨-, rfl⟩
    exact herr _ _ rfl
  · intro e
    exact herr _ _ rfl

/-- An update of a stored row stores the patched row, or it does nothing and throws. -/
theorem ensures_update {writer : Writer} {id : String} {patch : TransactionPatch}
    {current : TransactionRecord} (hcurrent : w.records id = some current)
    {Q : List (Reply Answer PaymentError) → Except PaymentError TransactionRecord →
      PaymentPlatform → Prop}
    (hstored : ∀ reply r row, reply.request = .update writer id patch →
      repo.Accepts patch → repo.Stores current patch row → Q [reply] r (w.put id row))
    (hrefused : ∀ e, Q [.refused (.update writer id patch) e] (.error e) w) :
    Ensures repo.server i (update writer id patch) w Q := by
  have hserves : ∀ {a w'}, repo.server.serves i (.update writer id patch) w a w' →
      repo.Accepts patch ∧
        ∃ row, repo.Stores current patch row ∧ a = some row ∧ w' = w.put id row := by
    intro a w' ⟨haccepts, hs⟩
    rw [hcurrent] at hs
    exact ⟨haccepts, hs⟩
  unfold update ask
  rw [ensures_bind, ensures_request]
  refine ⟨?_, ?_, ?_⟩
  · intro a w' hs
    obtain ⟨haccepts, row, hrow, rfl, rfl⟩ := hserves hs
    dsimp only
    rw [ensures_orThrow]
    refine ⟨fun _ _ => hstored _ _ _ rfl haccepts hrow, fun h => nomatch h⟩
  · intro a e w' hs
    obtain ⟨haccepts, row, hrow, rfl, rfl⟩ := hserves hs
    exact hstored _ _ _ rfl haccepts hrow
  · intro e
    exact hrefused e

end

end InverseArena.Backend.Payments
