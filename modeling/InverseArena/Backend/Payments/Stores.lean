import InverseArena.Backend.Payments.Creation
import InverseArena.Backend.Payments.Repositories
import Mathlib.Data.List.Nodup

/-!
# The repositories as payouts are created and signed

The same three repositories with what the creation of payouts needs of them: the lookup
by idempotency key, the two schemes of nonces, and the uniqueness that the stores
enforce. The RPC server may answer anything, and ids are generated once.

Results:
* `Consistent.not_mem_of_findByIdempotencyKey`, `Consistent.find`: what the lookup by
  key says of the stored rows.
* `Consistent.not_mem_of_nextNonce`: a reserved nonce is above all stored ones.
* `Consistent.insert`: what an insert that the store accepts leaves.
-/

namespace InverseArena.Backend.Payments

open Async

/-- The rows in the order of their insertion, the `idempotencyMap` and `nonceBySource`
    of the repository in memory, and the ids that have been generated. -/
structure PayoutStore where
  rows : List PayoutRecord
  idempotencyMap : String → Option String
  nonceBySource : String → ℕ
  generated : List String

/-- What no update of a row changes. -/
def PayoutRecord.entry (row : PayoutRecord) : String × Payout := (row.id, row.payout)

namespace PayoutStore

/-- What the store holds, as far as no update changes it. -/
def entries (s : PayoutStore) : List (String × Payout) := s.rows.map PayoutRecord.entry

/-- The row with the id. -/
def findRow (s : PayoutStore) (id : String) : Option PayoutRecord :=
  s.rows.find? fun row => row.id = id

/-- The row takes the place of the one with its id; `Map.set` appends it if there is
    none. -/
def setRow (rows : List PayoutRecord) (record : PayoutRecord) : List PayoutRecord :=
  if ∃ row ∈ rows, row.id = record.id then
    rows.map fun row => if row.id = record.id then record else row
  else rows ++ [record]

end PayoutStore

/-- `COALESCE(MAX(nonce), 0)` of the rows of the source account. -/
def maxNonce (sourceAccount : String) : List PayoutRecord → ℕ
  | [] => 0
  | row :: rows =>
    if row.payout.sourceAccount = sourceAccount then
      max row.payout.nonce (maxNonce sourceAccount rows)
    else maxNonce sourceAccount rows

namespace Repository

variable (repo : Repository)

/-- `findByIdempotencyKey(idempotencyKey)`. -/
def findByIdempotencyKey (s : PayoutStore) (key : String) : Option PayoutRecord :=
  match repo with
  | inMemory =>
    match s.idempotencyMap key with
    | none => none
    | some id => if id = "" then none else s.findRow id
  | sql | mongo => s.rows.find? fun row => row.payout.idempotencyKey = key

/-- `reserveNextNonce(sourceAccount)`. -/
def nextNonce (s : PayoutStore) (sourceAccount : String) : ℕ :=
  match repo with
  | inMemory => s.nonceBySource sourceAccount + 1
  | sql | mongo => maxNonce sourceAccount s.rows + 1

/-- What `reserveNextNonce` leaves: only the repository in memory counts. -/
def reserved (s : PayoutStore) (sourceAccount : String) : PayoutStore :=
  match repo with
  | inMemory =>
    { s with nonceBySource :=
        Function.update s.nonceBySource sourceAccount (repo.nextNonce s sourceAccount) }
  | sql | mongo => s

/-- The record has what another row may not have: in SQL `id`, `idempotency_key` and
    `(source_account, nonce)` are unique, in MongoDB `_id` and `idempotencyKey`. -/
def Clashes (s : PayoutStore) (record : PayoutRecord) : Prop :=
  match repo with
  | inMemory => False
  | sql => ∃ row ∈ s.rows, row.id = record.id ∨
      row.payout.idempotencyKey = record.payout.idempotencyKey ∨
      (row.payout.sourceAccount = record.payout.sourceAccount ∧
        row.payout.nonce = record.payout.nonce)
  | mongo => ∃ row ∈ s.rows, row.id = record.id ∨
      row.payout.idempotencyKey = record.payout.idempotencyKey

instance (s : PayoutStore) (record : PayoutRecord) : Decidable (repo.Clashes s record) :=
  match repo with
  | inMemory => inferInstanceAs (Decidable False)
  | sql => inferInstanceAs (Decidable (∃ row ∈ s.rows, _))
  | mongo => inferInstanceAs (Decidable (∃ row ∈ s.rows, _))

/-- The other checks of the store; Mongoose's `required` refuses an empty string. -/
def Valid (record : PayoutRecord) : Prop :=
  match repo with
  | inMemory => True
  | sql => record.status ∈ repo.statuses
  | mongo => record.status ∈ repo.statuses ∧ record.payout.asset ∈ ["XLM", "USDC"] ∧
      ∀ text ∈ [record.id, record.payout.payoutId, record.payout.idempotencyKey,
        record.payout.sourceAccount, record.payout.destinationAccount,
        record.payout.amountStroops, record.payout.unsignedXdr], text ≠ ""

instance (record : PayoutRecord) : Decidable (repo.Valid record) :=
  match repo with
  | inMemory => inferInstanceAs (Decidable True)
  | sql => inferInstanceAs (Decidable (_ ∈ _))
  | mongo => inferInstanceAs (Decidable (_ ∧ _ ∧ ∀ text ∈ _, text ≠ ""))

/-- The row that an insert leaves: MongoDB sets the times from its own clock. -/
def StoresNew (record row : PayoutRecord) : Prop :=
  match repo with
  | inMemory | sql => row = record
  | mongo => ∃ createdAt updatedAt,
      row = { record with createdAt := createdAt, updatedAt := updatedAt }

/-- What an insert leaves. -/
def inserted (s : PayoutStore) (row : PayoutRecord) : PayoutStore :=
  match repo with
  | inMemory =>
    { s with
      rows := PayoutStore.setRow s.rows row
      idempotencyMap :=
        Function.update s.idempotencyMap row.payout.idempotencyKey (some row.id) }
  | sql | mongo => { s with rows := s.rows ++ [row] }

/-- The row that `queueSignedTransaction` leaves: the databases take the time of the
    update from their own clocks. -/
def StoresSigned (current : PayoutRecord) (patch : SignedPatch) (row : PayoutRecord) : Prop :=
  let signed : PayoutRecord := { current with
    signedXdr := some patch.signedXdr
    status := .queued
    errorMessage := none
    updatedAt := patch.updatedAt }
  match repo with
  | inMemory => row = signed
  | sql | mongo => ∃ updatedAt, row = { signed with updatedAt := updatedAt }

/-- What serving a request does. -/
def servesPayouts (_ : ℕ) :
    (q : PayoutRequest) → PayoutStore → PayoutAnswer q → PayoutStore → Prop
  | .now, s, _, s' => s' = s
  | .generateRecordId, s, id, s' =>
    id ≠ "" ∧ id ∉ s.generated ∧ s' = { s with generated := id :: s.generated }
  | .findByIdempotencyKey key, s, a, s' => a = repo.findByIdempotencyKey s key ∧ s' = s
  | .findById id, s, a, s' => a = s.findRow id ∧ s' = s
  | .reserveNextNonce source, s, a, s' => a = repo.nextNonce s source ∧ s' = repo.reserved s source
  | .insert record, s, _, s' => repo.Valid record ∧ ¬ repo.Clashes s record ∧
    ∃ row, repo.StoresNew record row ∧ s' = repo.inserted s row
  | .update id patch, s, a, s' =>
    match s.findRow id with
    | none => a = none ∧ s' = s
    | some current => ∃ row, repo.StoresSigned current patch row ∧ a = some row ∧
        s' = { s with rows := PayoutStore.setRow s.rows row }
  | .getAccount _, s, _, s' => s' = s
  | .prepareTransaction _, s, _, s' => s' = s

/-- What happens besides: the other calls of the service update rows. -/
inductive PayoutMove where
  | updated

/-- The repository, and an RPC server that may answer anything. -/
def payoutServer : Server PayoutAnswer PayoutStore PayoutMove where
  serves := repo.servesPayouts
  moves _ s s' := ∃ rows, rows.map PayoutRecord.entry = s.entries ∧ s' = { s with rows := rows }

end Repository

/-! ## Consistent stores -/

/-- Ids, idempotency keys, and the nonces of an account are unique, and the maps of the
    repository in memory agree with its rows. -/
structure PayoutStore.Consistent (s : PayoutStore) (repo : Repository) : Prop where
  ids : (s.entries.map (·.1)).Nodup
  keys : (s.entries.map (·.2.idempotencyKey)).Nodup
  nonces : (s.entries.map fun e => (e.2.sourceAccount, e.2.nonce)).Nodup
  generated : ∀ e ∈ s.entries, e.1 ∈ s.generated ∧ e.1 ≠ ""
  index : repo = .inMemory → ∀ key,
    s.idempotencyMap key = (s.entries.find? fun e => e.2.idempotencyKey = key).map (·.1)
  counter : repo = .inMemory → ∀ e ∈ s.entries, e.2.nonce ≤ s.nonceBySource e.2.sourceAccount

namespace PayoutStore

variable {s : PayoutStore} {repo : Repository}

theorem entry_mem {row : PayoutRecord} (h : row ∈ s.rows) : row.entry ∈ s.entries :=
  List.mem_map_of_mem h

theorem exists_row {e : String × Payout} (h : e ∈ s.entries) : ∃ row ∈ s.rows, row.entry = e :=
  List.mem_map.mp h

theorem find_entries (p : String × Payout → Bool) :
    s.entries.find? p = (s.rows.find? fun row => p row.entry).map PayoutRecord.entry := by
  unfold entries
  rw [List.find?_map]
  rfl

/-- A lookup that finds a row finds one with the key. -/
theorem Consistent.find (h : s.Consistent repo) {key : String} {row : PayoutRecord}
    (hrow : repo.findByIdempotencyKey s key = some row) :
    row ∈ s.rows ∧ row.payout.idempotencyKey = key := by
  have hdatabase : (s.rows.find? fun row => row.payout.idempotencyKey = key) = some row →
      row ∈ s.rows ∧ row.payout.idempotencyKey = key := by
    intro hfind
    exact ⟨List.mem_of_find?_eq_some hfind, by simpa using List.find?_some hfind⟩
  cases repo with
  | inMemory =>
    unfold Repository.findByIdempotencyKey at hrow
    dsimp only at hrow
    rw [h.index rfl, find_entries] at hrow
    cases hfind : s.rows.find? fun row => row.entry.2.idempotencyKey = key with
    | none =>
      rw [hfind] at hrow
      cases hrow
    | some row' =>
      rw [hfind] at hrow
      dsimp only [Option.map_some] at hrow
      split at hrow
      · cases hrow
      · have hmem := List.mem_of_find?_eq_some hrow
        have hfound := List.find?_some hrow
        have hid : row.id = row'.id := of_decide_eq_true hfound
        have hmem' := List.mem_of_find?_eq_some hfind
        have hentry : row.entry = row'.entry :=
          List.inj_on_of_nodup_map h.ids (entry_mem hmem) (entry_mem hmem') hid
        have hkey : row'.entry.2.idempotencyKey = key := by simpa using List.find?_some hfind
        have hpayout : row.payout = row'.payout := congrArg Prod.snd hentry
        exact ⟨hmem, hpayout ▸ hkey⟩
  | sql => exact hdatabase hrow
  | mongo => exact hdatabase hrow

/-- A key that is not found is not stored. -/
theorem Consistent.not_mem_of_findByIdempotencyKey (h : s.Consistent repo) {key : String}
    (hnone : repo.findByIdempotencyKey s key = none) :
    key ∉ s.entries.map (·.2.idempotencyKey) := by
  have hdatabase : (s.rows.find? fun row => row.payout.idempotencyKey = key) = none →
      key ∉ s.entries.map (·.2.idempotencyKey) := by
    intro hfind hmem
    obtain ⟨e, he, hkey⟩ := List.mem_map.mp hmem
    obtain ⟨row, hrow, rfl⟩ := exists_row he
    have hne := List.find?_eq_none.mp hfind row hrow
    exact hne (decide_eq_true hkey)
  cases repo with
  | inMemory =>
    unfold Repository.findByIdempotencyKey at hnone
    dsimp only at hnone
    rw [h.index rfl, find_entries] at hnone
    cases hfind : s.rows.find? fun row => row.entry.2.idempotencyKey = key with
    | none => exact hdatabase hfind
    | some row =>
      rw [hfind] at hnone
      dsimp only [Option.map_some] at hnone
      have hmem := List.mem_of_find?_eq_some hfind
      rw [if_neg (h.generated _ (entry_mem hmem)).2] at hnone
      have hne := List.find?_eq_none.mp hnone row hmem
      exact absurd (decide_eq_true rfl) hne
  | sql => exact hdatabase hnone
  | mongo => exact hdatabase hnone

theorem le_maxNonce {source : String} {rows : List PayoutRecord} {row : PayoutRecord}
    (h : row ∈ rows) (hsource : row.payout.sourceAccount = source) :
    row.payout.nonce ≤ maxNonce source rows := by
  induction rows with
  | nil => cases h
  | cons row' rows ih =>
    unfold maxNonce
    rcases List.mem_cons.mp h with rfl | h
    · rw [if_pos hsource]
      exact Nat.le_max_left ..
    · split
      · exact Nat.le_trans (ih h) (Nat.le_max_right ..)
      · exact ih h

/-- A reserved nonce is above all those that are stored. -/
theorem Consistent.not_mem_of_nextNonce (h : s.Consistent repo) (source : String) :
    (source, repo.nextNonce s source) ∉
      s.entries.map fun e => (e.2.sourceAccount, e.2.nonce) := by
  intro hmem
  obtain ⟨e, he, heq⟩ := List.mem_map.mp hmem
  obtain ⟨hsource, hnonce⟩ := Prod.mk.inj heq
  have hdatabase : e.2.nonce ≠ maxNonce source s.rows + 1 := by
    obtain ⟨row, hrow, rfl⟩ := exists_row he
    have hle : row.payout.nonce ≤ maxNonce source s.rows := le_maxNonce hrow hsource
    exact Nat.ne_of_lt (Nat.lt_succ_of_le hle)
  cases repo with
  | inMemory =>
    have hle := h.counter rfl e he
    rw [hsource] at hle
    exact absurd hnonce (Nat.ne_of_lt (Nat.lt_succ_of_le hle))
  | sql => exact hdatabase hnonce
  | mongo => exact hdatabase hnonce

/-- What an insert stores is its record, as far as no update changes it. -/
theorem entry_of_storesNew {record row : PayoutRecord} (h : repo.StoresNew record row) :
    row.entry = record.entry := by
  cases repo with
  | inMemory => exact congrArg PayoutRecord.entry h
  | sql => exact congrArg PayoutRecord.entry h
  | mongo =>
    obtain ⟨createdAt, updatedAt, rfl⟩ := h
    rfl

theorem setRow_of_fresh {row : PayoutRecord} (h : row.id ∉ s.entries.map (·.1)) :
    setRow s.rows row = s.rows ++ [row] := by
  unfold setRow
  rw [if_neg]
  rintro ⟨row', hrow', hid⟩
  exact h (hid ▸ List.mem_map_of_mem (entry_mem hrow'))

/-- An insert of a new id appends the record. -/
theorem entries_inserted {row : PayoutRecord} (h : row.id ∉ s.entries.map (·.1)) :
    (repo.inserted s row).entries = s.entries ++ [row.entry] := by
  have happend : (s.rows ++ [row]).map PayoutRecord.entry = s.entries ++ [row.entry] := by
    rw [List.map_append]
    rfl
  cases repo with
  | inMemory =>
    show (setRow s.rows row).map PayoutRecord.entry = _
    rw [setRow_of_fresh h]
    exact happend
  | sql => exact happend
  | mongo => exact happend

theorem nodup_append_singleton {α : Type} {l : List α} {a : α} (h : l.Nodup) (ha : a ∉ l) :
    (l ++ [a]).Nodup := by
  rw [List.nodup_append]
  refine ⟨h, List.nodup_singleton a, ?_⟩
  rintro b hb c hc rfl
  exact ha (List.mem_singleton.mp hc ▸ hb)

/-- The index after an insert. -/
theorem index_inserted {key : String} {e : String × Payout}
    (hkey : e.2.idempotencyKey ∉ s.entries.map (·.2.idempotencyKey)) :
    (((s.entries ++ [e]).find? fun e => e.2.idempotencyKey = key).map (·.1)) =
      if key = e.2.idempotencyKey then some e.1
      else (s.entries.find? fun e => e.2.idempotencyKey = key).map (·.1) := by
  rw [List.find?_append]
  split_ifs with hk
  · subst hk
    have hnone : (s.entries.find? fun e' => e'.2.idempotencyKey = e.2.idempotencyKey) = none := by
      rw [List.find?_eq_none]
      intro e' he' heq
      exact hkey (of_decide_eq_true heq ▸ List.mem_map_of_mem he')
    rw [hnone]
    simp
  · simp [Ne.symm hk]

/-- An insert of a record with a new id, a new key and a new nonce. -/
theorem Consistent.insert (h : s.Consistent repo) {row : PayoutRecord}
    (hid : row.id ∉ s.entries.map (·.1)) (hgenerated : row.id ∈ s.generated ∧ row.id ≠ "")
    (hkey : row.payout.idempotencyKey ∉ s.entries.map (·.2.idempotencyKey))
    (hnonce : (row.payout.sourceAccount, row.payout.nonce) ∉
      s.entries.map fun e => (e.2.sourceAccount, e.2.nonce))
    (hcounted : repo = .inMemory →
      row.payout.nonce ≤ s.nonceBySource row.payout.sourceAccount) :
    (repo.inserted s row).Consistent repo where
  ids := by
    rw [entries_inserted hid, List.map_append]
    exact nodup_append_singleton h.ids hid
  keys := by
    rw [entries_inserted hid, List.map_append]
    exact nodup_append_singleton h.keys hkey
  nonces := by
    rw [entries_inserted hid, List.map_append]
    exact nodup_append_singleton h.nonces hnonce
  generated := by
    have hgen : (repo.inserted s row).generated = s.generated := by
      cases repo with
      | inMemory => rfl
      | sql => rfl
      | mongo => rfl
    rw [entries_inserted hid, hgen]
    intro e he
    rcases List.mem_append.mp he with he | he
    · exact h.generated e he
    · rw [List.mem_singleton.mp he]
      exact hgenerated
  index := by
    rintro rfl key
    rw [entries_inserted hid, index_inserted hkey]
    show Function.update s.idempotencyMap row.payout.idempotencyKey (some row.id) key = _
    split_ifs with hk
    · subst hk
      exact Function.update_self ..
    · exact (Function.update_of_ne hk ..).trans (h.index rfl key)
  counter := by
    rintro rfl
    rw [entries_inserted hid]
    intro e he
    rcases List.mem_append.mp he with he | he
    · exact h.counter rfl e he
    · rw [List.mem_singleton.mp he]
      exact hcounted rfl

/-- What a store would refuse has an id, a key or a nonce that it holds. -/
theorem not_clashes {record : PayoutRecord} (hid : record.id ∉ s.entries.map (·.1))
    (hkey : record.payout.idempotencyKey ∉ s.entries.map (·.2.idempotencyKey))
    (hnonce : (record.payout.sourceAccount, record.payout.nonce) ∉
      s.entries.map fun e => (e.2.sourceAccount, e.2.nonce)) :
    ¬ repo.Clashes s record := by
  have hids : ∀ row ∈ s.rows, row.id ≠ record.id :=
    fun row hrow heq => hid (heq ▸ List.mem_map_of_mem (entry_mem hrow))
  have hkeys : ∀ row ∈ s.rows, row.payout.idempotencyKey ≠ record.payout.idempotencyKey :=
    fun row hrow heq => hkey (List.mem_map.mpr ⟨row.entry, entry_mem hrow, heq⟩)
  cases repo with
  | inMemory => exact id
  | sql =>
    rintro ⟨row, hrow, heq | heq | ⟨hsource, heq⟩⟩
    · exact hids row hrow heq
    · exact hkeys row hrow heq
    · exact hnonce (List.mem_map.mpr ⟨row.entry, entry_mem hrow, Prod.ext hsource heq⟩)
  | mongo =>
    rintro ⟨row, hrow, heq | heq⟩
    · exact hids row hrow heq
    · exact hkeys row hrow heq

/-- The store holds the same, and has generated and counted no less. -/
structure Extends (s s' : PayoutStore) : Prop where
  entries : s'.entries = s.entries
  idempotencyMap : s'.idempotencyMap = s.idempotencyMap
  generated : ∀ id ∈ s.generated, id ∈ s'.generated
  nonceBySource : ∀ source, s.nonceBySource source ≤ s'.nonceBySource source

theorem Consistent.of_extends {s' : PayoutStore} (h : s.Consistent repo) (hs : s.Extends s') :
    s'.Consistent repo := by
  constructor
  · rw [hs.entries]
    exact h.ids
  · rw [hs.entries]
    exact h.keys
  · rw [hs.entries]
    exact h.nonces
  · rw [hs.entries]
    exact fun e he => ⟨hs.generated _ (h.generated e he).1, (h.generated e he).2⟩
  · rw [hs.entries, hs.idempotencyMap]
    exact h.index
  · rw [hs.entries]
    exact fun hrepo e he => Nat.le_trans (h.counter hrepo e he) (hs.nonceBySource _)

/-- Updates of rows do not change what the store holds. -/
theorem extends_of_rows {rows : List PayoutRecord}
    (h : rows.map PayoutRecord.entry = s.entries) : s.Extends { s with rows := rows } :=
  ⟨h, rfl, fun _ h => h, fun _ => Nat.le_refl _⟩

theorem extends_generated (id : String) : s.Extends { s with generated := id :: s.generated } :=
  ⟨rfl, rfl, fun _ h => List.mem_cons_of_mem _ h, fun _ => Nat.le_refl _⟩

theorem extends_reserved (source : String) : s.Extends (repo.reserved s source) := by
  cases repo with
  | inMemory =>
    refine ⟨rfl, rfl, fun _ h => h, fun source' => ?_⟩
    show _ ≤ Function.update s.nonceBySource source (s.nonceBySource source + 1) source'
    by_cases hs : source' = source
    · subst hs
      rw [Function.update_self]
      exact Nat.le_succ _
    · exact Nat.le_of_eq (Function.update_of_ne hs _ _).symm
  | sql => exact ⟨rfl, rfl, fun _ h => h, fun _ => Nat.le_refl _⟩
  | mongo => exact ⟨rfl, rfl, fun _ h => h, fun _ => Nat.le_refl _⟩

/-- Nothing is stored. -/
def empty : PayoutStore := ⟨[], fun _ => none, fun _ => 0, []⟩

theorem empty_consistent (repo : Repository) : empty.Consistent repo where
  ids := List.nodup_nil
  keys := List.nodup_nil
  nonces := List.nodup_nil
  generated := fun _ h => nomatch h
  index := fun _ _ => rfl
  counter := fun _ _ h => nomatch h

end PayoutStore

/-! ## A working repository -/

namespace Repository

variable (repo : Repository)

/-- The row of an update in a database whose clock agrees with the service. -/
def signedRow (current : PayoutRecord) (patch : SignedPatch) : PayoutRecord :=
  { current with
    signedXdr := some patch.signedXdr
    status := .queued
    errorMessage := none
    updatedAt := patch.updatedAt }

/-- The answer of a working repository and RPC server; `id` is generated next. -/
def workPayouts (id : String) (_ : ℕ) :
    (q : PayoutRequest) → PayoutStore → Option (PayoutAnswer q × PayoutStore)
  | .now, s => some (0, s)
  | .generateRecordId, s =>
    if id ≠ "" ∧ id ∉ s.generated then some (id, { s with generated := id :: s.generated })
    else none
  | .findByIdempotencyKey key, s => some (repo.findByIdempotencyKey s key, s)
  | .findById id, s => some (s.findRow id, s)
  | .reserveNextNonce source, s => some (repo.nextNonce s source, repo.reserved s source)
  | .insert record, s =>
    if repo.Valid record ∧ ¬ repo.Clashes s record then some ((), repo.inserted s record) else none
  | .update id patch, s =>
    match s.findRow id with
    | none => some (none, s)
    | some current => some (some (signedRow current patch),
        { s with rows := PayoutStore.setRow s.rows (signedRow current patch) })
  | .getAccount source, s => some (source, s)
  | .prepareTransaction _, s => some (⟨some 100, "prepared"⟩, s)

theorem workPayouts_serves {id : String} {i : ℕ} {q : PayoutRequest} {s s' : PayoutStore}
    {a : PayoutAnswer q} (h : repo.workPayouts id i q s = some (a, s')) :
    repo.servesPayouts i q s a s' := by
  cases q with
  | generateRecordId =>
    simp only [workPayouts] at h
    split_ifs at h with hid
    cases h
    exact ⟨hid.1, hid.2, rfl⟩
  | insert record =>
    simp only [workPayouts] at h
    split_ifs at h with hvalid
    cases h
    refine ⟨hvalid.1, hvalid.2, record, ?_, rfl⟩
    cases repo with
    | inMemory => rfl
    | sql => rfl
    | mongo => exact ⟨record.createdAt, record.updatedAt, rfl⟩
  | update id patch =>
    simp only [workPayouts] at h
    simp only [servesPayouts]
    split at h
    · cases h
      exact ⟨rfl, rfl⟩
    · cases h
      refine ⟨_, ?_, rfl, rfl⟩
      cases repo with
      | inMemory => rfl
      | sql => exact ⟨patch.updatedAt, rfl⟩
      | mongo => exact ⟨patch.updatedAt, rfl⟩
  | findByIdempotencyKey key =>
    cases h
    exact ⟨rfl, rfl⟩
  | findById id =>
    cases h
    exact ⟨rfl, rfl⟩
  | reserveNextNonce source =>
    cases h
    exact ⟨rfl, rfl⟩
  | _ =>
    cases h
    rfl

/-- A script for the repository: the hints are the ids that are generated. -/
def workingPayouts : Script repo.payoutServer String where
  serve := repo.workPayouts
  move _ _ := none
  serve_sound := repo.workPayouts_serves
  move_sound h := nomatch h

end Repository

end InverseArena.Backend.Payments
