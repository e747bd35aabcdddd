import InverseArena.Backend.Payments.Stores
import InverseArena.Library.Holdings
import InverseArena.Library.Places

/-!
# Is the creation of payouts idempotent?

A call looks its idempotency key up and stores its record much later, after the nonce
has been reserved and the RPC server has been asked twice. Calls that run side by side
may all find nothing. In SQL and MongoDB a nonce is reserved by reading the largest one
that is stored, so such calls also reserve the same nonce.

Results:
* `payouts_idempotent`: at most one record for each key, the same record for all calls
  with the key, no refused insert and no shared nonce, in every run in which no call
  finds nothing while another one with its key is under way, and in the databases none
  reserves a nonce that another one has reserved.
* `not_payouts_idempotent`: two calls side by side, in each repository.
-/

namespace InverseArena.Backend.Payments

open Async Transition Holdings

/-! ## Where a call stands -/

/-- What a call has done so far. -/
inductive Stage where
  | started
  | missing
  | reserved (nonce : ℕ)
  | identified (nonce : ℕ) (id : String)
  | returned (record : PayoutRecord)
  | failed

/-- A call: its idempotency key, if its input is valid, and what it has done. -/
structure Creation where
  key : Option String
  stage : Stage

/-- The idempotency key of a valid input. -/
def keyOf (input : PayoutInput) : Option String :=
  match parseCreatePayoutRequest input with
  | .ok request => some request.idempotencyKey
  | .error _ => none

def Creation.first (input : PayoutInput) : Creation := ⟨keyOf input, .started⟩

/-- A call that has not found a record and not stored one holds its key. -/
def Creation.holdsKey (g : Creation) (key : String) : Prop :=
  match g.stage with
  | .missing | .reserved _ | .identified _ _ => g.key = some key
  | _ => False

/-- The call has reserved the nonce and not stored it. -/
def Creation.holdsNonce (g : Creation) (nonce : ℕ) : Prop :=
  match g.stage with
  | .reserved nonce' | .identified nonce' _ => nonce' = nonce
  | _ => False

/-- The call has generated the id and not stored it. -/
def Creation.holdsId (g : Creation) (id : String) : Prop :=
  match g.stage with
  | .identified _ id' => id' = id
  | _ => False

instance (g : Creation) (key : String) : Decidable (g.holdsKey key) := by
  unfold Creation.holdsKey
  split <;> infer_instance

instance (g : Creation) (nonce : ℕ) : Decidable (g.holdsNonce nonce) := by
  unfold Creation.holdsNonce
  split <;> infer_instance

variable (svc : PayoutService) (repo : Repository)

/-- What a call may ask for. -/
def Creation.allows (g : Creation) : PayoutRequest → Prop
  | .now => True
  | .getAccount _ => True
  | .prepareTransaction _ => True
  | .findByIdempotencyKey key => g.stage = .started ∧ g.key = some key
  | .reserveNextNonce source => g.stage = .missing ∧ source = svc.sourceAccount
  | .generateRecordId => ∃ nonce, g.stage = .reserved nonce
  | .insert record => g.stage = .identified record.payout.nonce record.id ∧
    g.key = some record.payout.idempotencyKey ∧ record.payout.sourceAccount = svc.sourceAccount
  | .findById _ => False
  | .update _ _ => False

/-- Where a fulfilled request leaves a call. -/
def Stage.next (stage : Stage) : (q : PayoutRequest) → PayoutAnswer q → Stage
  | .findByIdempotencyKey _, some record => .returned record
  | .findByIdempotencyKey _, none => .missing
  | .reserveNextNonce _, nonce => .reserved nonce
  | .generateRecordId, id =>
    match stage with
    | .reserved nonce => .identified nonce id
    | _ => stage
  | .insert record, _ => .returned record
  | .now, _ => stage
  | .getAccount _, _ => stage
  | .prepareTransaction _, _ => stage
  | .findById _, _ => stage
  | .update _ _, _ => stage

/-- Where a reply leaves a call; a rejected request ends it. -/
def Creation.next (g : Creation) (q : PayoutRequest) :
    Except PaymentError (PayoutAnswer q) → Creation
  | .ok a => ⟨g.key, g.stage.next q a⟩
  | .error _ => ⟨g.key, .failed⟩

/-- The discipline of `createPayoutTransaction`. -/
def creating : Protocol PayoutAnswer PaymentError Creation where
  allowed := Creation.allows svc
  answers _ _ := True
  next := Creation.next

/-- A call that returns, returns the record that it has found or stored. -/
def Returned (g : Creation) (r : Except PaymentError BuildPayoutResult) : Prop :=
  ∀ result, r = .ok result → g.stage = .returned result.transaction

theorem returned_error (g : Creation) (e : PaymentError) : Returned g (.error e) :=
  fun _ h => nomatch h

variable {svc repo}

/-- A request that a call goes on after; when it is rejected the call ends. -/
theorem follows_fetch {α : Type} {q : PayoutRequest} {f : PayoutAnswer q → PayoutProgram α}
    {g : Creation} {Q : Creation → Except PaymentError α → Prop} (hq : g.allows svc q)
    (hok : ∀ a, (f a).Follows (creating svc) ⟨g.key, g.stage.next q a⟩ Q)
    (herr : ∀ g e, Q g (.error e)) : (fetch q >>= f).Follows (creating svc) g Q := by
  unfold fetch request
  rw [follows_bind]
  exact ⟨hq, fun a _ => hok a, fun e => herr _ e⟩

/-- A computation that may throw. -/
theorem follows_done {α β : Type} {r : Except PaymentError α} {f : α → PayoutProgram β}
    {g : Creation} {Q : Creation → Except PaymentError β → Prop}
    (hok : ∀ a, (f a).Follows (creating svc) g Q) (herr : ∀ g e, Q g (.error e)) :
    ((done r : PayoutProgram α) >>= f).Follows (creating svc) g Q := by
  cases r with
  | ok a => exact hok a
  | error e => exact herr g e

/-- Nothing is reserved or stored while the transaction is prepared. -/
theorem buildPreparedTransaction_follows (request : CreatePayoutRequest) (g : Creation) :
    (buildPreparedTransaction svc request).Follows (creating svc) g
      fun g' r => ∀ a, r = .ok a → g' = g := by
  unfold buildPreparedTransaction
  refine follows_fetch trivial ?_ fun _ _ _ h => nomatch h
  intro accountId
  refine follows_done ?_ fun _ _ _ h => nomatch h
  rintro ⟨built, amountStroops⟩
  refine follows_fetch trivial ?_ fun _ _ _ h => nomatch h
  intro prepared
  refine follows_done ?_ fun _ _ _ h => nomatch h
  rintro ⟨⟩ a -
  rfl

theorem createPayoutTransaction_follows (svc : PayoutService) (input : PayoutInput) :
    (createPayoutTransaction svc input).Follows (creating svc) (.first input) Returned := by
  unfold createPayoutTransaction Creation.first keyOf
  cases parseCreatePayoutRequest input with
  | error issues => exact returned_error _ _
  | ok request =>
    refine follows_fetch ⟨rfl, rfl⟩ ?_ returned_error
    rintro (_ | existing)
    · refine follows_fetch ⟨rfl, rfl⟩ ?_ returned_error
      intro nonce
      rw [follows_bind]
      refine (buildPreparedTransaction_follows request _).mono ?_
      rintro g (e | ⟨prepared, amountStroops⟩) hg
      · exact returned_error g e
      rw [hg _ rfl]
      refine follows_fetch trivial ?_ returned_error
      intro now
      refine follows_done ?_ returned_error
      rintro ⟨status, signedXdr⟩
      refine follows_fetch ⟨nonce, rfl⟩ ?_ returned_error
      intro id
      refine follows_fetch ⟨rfl, rfl, rfl⟩ ?_ returned_error
      rintro ⟨⟩ result hresult
      cases hresult
      rfl
    · intro result hresult
      cases hresult
      rfl

/-! ## What calls and the store have in common -/

/-- The place holds nothing and has returned nothing. -/
def Creation.Idle (o : Option Creation) : Prop :=
  ∀ g ∈ o, g.stage = .started ∨ g.stage = .failed

theorem Creation.idle_none : Idle none := fun _ h => nomatch h

theorem Creation.idle_first (input : PayoutInput) : Idle (some (first input)) := by
  rintro g ⟨⟩
  exact .inl rfl

theorem Creation.idle_failed (key : Option String) : Idle (some ⟨key, .failed⟩) := by
  rintro g ⟨⟩
  exact .inr rfl

namespace Creation.Idle

variable {o : Option Creation} (h : Idle o) {g : Creation} (hg : g ∈ o)

include h hg

theorem key {key : String} : ¬ g.holdsKey key := by
  unfold holdsKey
  rcases h g hg with hstage | hstage <;> rw [hstage] <;> exact fun h => h

theorem nonce {nonce : ℕ} : ¬ g.holdsNonce nonce := by
  unfold holdsNonce
  rcases h g hg with hstage | hstage <;> rw [hstage] <;> exact fun h => h

theorem id {id : String} : ¬ g.holdsId id := by
  unfold holdsId
  rcases h g hg with hstage | hstage <;> rw [hstage] <;> exact fun h => h

theorem returned {record : PayoutRecord} : g.stage ≠ .returned record := by
  rcases h g hg with hstage | hstage <;> rw [hstage] <;> exact nofun

end Creation.Idle

variable (svc repo) in
/-- The store is consistent; keys, nonces and ids that calls hold are exclusive and not
    stored; and what calls have returned is stored. -/
structure Agreed (s : PayoutStore) (gs : ℕ → Option Creation) : Prop where
  store : s.Consistent repo
  keys : Exclusive Creation.holdsKey (· ∈ s.entries.map (·.2.idempotencyKey)) gs
  nonces : Exclusive Creation.holdsNonce
    (fun nonce => (svc.sourceAccount, nonce) ∈
      s.entries.map fun e => (e.2.sourceAccount, e.2.nonce)) gs
  counted : repo = .inMemory → ∀ {i nonce}, Held Creation.holdsNonce gs i nonce →
    nonce ≤ s.nonceBySource svc.sourceAccount
  ids : Exclusive Creation.holdsId (· ∈ s.entries.map (·.1)) gs
  generated : ∀ {i id}, Held Creation.holdsId gs i id → id ∈ s.generated ∧ id ≠ ""
  returned : ∀ {i g record}, gs i = some g → g.stage = .returned record →
    g.key = some record.payout.idempotencyKey ∧ record.entry ∈ s.entries

variable {s s' : PayoutStore} {gs : ℕ → Option Creation} {i : ℕ} {o : Option Creation}

theorem eq_of_update {g : Option Creation} {j : ℕ} {g' : Creation}
    (h : Function.update gs i g j = some g') : g = some g' ∨ gs j = some g' := by
  by_cases hj : j = i
  · subst hj
    rw [Function.update_self] at h
    exact .inl h
  · rw [Function.update_of_ne hj] at h
    exact .inr h

namespace Agreed

/-- A call moves to a place that holds nothing. -/
theorem idle (h : Agreed svc repo s gs) (ho : Creation.Idle o) :
    Agreed svc repo s (Function.update gs i o) where
  store := h.store
  keys := h.keys.shrink fun _ hg _ hb => absurd hb (ho.key hg)
  nonces := h.nonces.shrink fun _ hg _ hb => absurd hb (ho.nonce hg)
  counted hrepo _ _ hj :=
    (held_update hj).elim (fun ⟨_, hg, hb⟩ => absurd hb (ho.nonce hg)) (h.counted hrepo)
  ids := h.ids.shrink fun _ hg _ hb => absurd hb (ho.id hg)
  generated hj :=
    (held_update hj).elim (fun ⟨_, hg, hb⟩ => absurd hb (ho.id hg)) h.generated
  returned := by
    intro j g record hj hstage
    rcases eq_of_update hj with hj | hj
    · exact absurd hstage (ho.returned hj)
    · exact h.returned hj hstage

/-- The store generates an id, counts a reservation, or has its rows updated. -/
theorem of_extends (h : Agreed svc repo s gs) (hs : s.Extends s') : Agreed svc repo s' gs := by
  constructor
  · exact h.store.of_extends hs
  · rw [hs.entries]
    exact h.keys
  · rw [hs.entries]
    exact h.nonces
  · exact fun hrepo _ _ hi => Nat.le_trans (h.counted hrepo hi) (hs.nonceBySource _)
  · rw [hs.entries]
    exact h.ids
  · exact fun hi => ⟨hs.generated _ (h.generated hi).1, (h.generated hi).2⟩
  · rw [hs.entries]
    exact h.returned

/-- A call finds a record. -/
theorem found (h : Agreed svc repo s gs) {key : String} {record : PayoutRecord}
    (hfind : repo.findByIdempotencyKey s key = some record) :
    Agreed svc repo s (Function.update gs i (some ⟨some key, .returned record⟩)) := by
  obtain ⟨hmem, hkey⟩ := h.store.find hfind
  exact
    { store := h.store
      keys := h.keys.shrink (by rintro g ⟨⟩ b ⟨⟩)
      nonces := h.nonces.shrink (by rintro g ⟨⟩ b ⟨⟩)
      counted := by
        intro hrepo j nonce hj
        rcases held_update hj with ⟨g, ⟨⟩, ⟨⟩⟩ | hj
        exact h.counted hrepo hj
      ids := h.ids.shrink (by rintro g ⟨⟩ b ⟨⟩)
      generated := by
        intro j id hj
        rcases held_update hj with ⟨g, ⟨⟩, ⟨⟩⟩ | hj
        exact h.generated hj
      returned := by
        intro j g record' hj hstage
        rcases eq_of_update hj with hj | hj
        · cases hj
          cases hstage
          exact ⟨congrArg some hkey.symm, PayoutStore.entry_mem hmem⟩
        · exact h.returned hj hstage }

/-- A call finds no record, and no other call with its key is under way. -/
theorem missing (h : Agreed svc repo s gs) {key : String}
    (hfind : repo.findByIdempotencyKey s key = none)
    (hnobody : ∀ j, j ≠ i → ¬ Held Creation.holdsKey gs j key) :
    Agreed svc repo s (Function.update gs i (some ⟨some key, .missing⟩)) where
  store := h.store
  keys := by
    refine h.keys.acquire ?_ (h.store.not_mem_of_findByIdempotencyKey hfind) hnobody
    rintro g ⟨⟩ b ⟨⟩
    exact .inr rfl
  nonces := h.nonces.shrink (by rintro g ⟨⟩ b ⟨⟩)
  counted := by
    intro hrepo j nonce hj
    rcases held_update hj with ⟨g, ⟨⟩, ⟨⟩⟩ | hj
    exact h.counted hrepo hj
  ids := h.ids.shrink (by rintro g ⟨⟩ b ⟨⟩)
  generated := by
    intro j id hj
    rcases held_update hj with ⟨g, ⟨⟩, ⟨⟩⟩ | hj
    exact h.generated hj
  returned := by
    intro j g record hj hstage
    rcases eq_of_update hj with hj | hj
    · cases hj
      cases hstage
    · exact h.returned hj hstage

/-- The repository in memory does not give a nonce twice. -/
theorem not_held_of_inMemory (h : Agreed svc .inMemory s gs) (j : ℕ) :
    ¬ Held Creation.holdsNonce gs j (Repository.inMemory.nextNonce s svc.sourceAccount) :=
  fun hj => Nat.not_succ_le_self _ (h.counted rfl hj)

/-- A call reserves a nonce that no other call has reserved. -/
theorem reserved (h : Agreed svc repo s gs) {key : Option String}
    (hi : gs i = some ⟨key, .missing⟩)
    (hnobody : ∀ j, j ≠ i →
      ¬ Held Creation.holdsNonce gs j (repo.nextNonce s svc.sourceAccount)) :
    Agreed svc repo (repo.reserved s svc.sourceAccount) (Function.update gs i
      (some ⟨key, .reserved (repo.nextNonce s svc.sourceAccount)⟩)) := by
  have hs : s.Extends (repo.reserved s svc.sourceAccount) := PayoutStore.extends_reserved _
  have h' := h.of_extends hs
  have hfree := h.store.not_mem_of_nextNonce svc.sourceAccount
  exact
    { store := h'.store
      keys := by
        refine h'.keys.shrink ?_
        rintro g ⟨⟩ b hb
        exact (held_of_eq hi).mpr hb
      nonces := by
        refine h'.nonces.acquire ?_ (by rwa [hs.entries]) hnobody
        rintro g ⟨⟩ b ⟨⟩
        exact .inr rfl
      counted := by
        rintro rfl j nonce hj
        rcases held_update hj with ⟨g, ⟨⟩, ⟨⟩⟩ | hj
        · show _ ≤ Function.update s.nonceBySource svc.sourceAccount _ svc.sourceAccount
          exact Nat.le_of_eq (Function.update_self svc.sourceAccount _ s.nonceBySource).symm
        · exact h'.counted rfl hj
      ids := h'.ids.shrink (by rintro g ⟨⟩ b ⟨⟩)
      generated := by
        intro j id hj
        rcases held_update hj with ⟨g, ⟨⟩, ⟨⟩⟩ | hj
        exact h'.generated hj
      returned := by
        intro j g record hj hstage
        rcases eq_of_update hj with hj | hj
        · cases hj
          cases hstage
        · exact h'.returned hj hstage }

/-- A call generates an id. -/
theorem identified (h : Agreed svc repo s gs) {key : Option String} {nonce : ℕ} {id : String}
    (hi : gs i = some ⟨key, .reserved nonce⟩) (hid : id ≠ "") (hfresh : id ∉ s.generated) :
    Agreed svc repo { s with generated := id :: s.generated }
      (Function.update gs i (some ⟨key, .identified nonce id⟩)) := by
  have h' := h.of_extends (PayoutStore.extends_generated id)
  exact
    { store := h'.store
      keys := by
        refine h'.keys.shrink ?_
        rintro g ⟨⟩ b hb
        exact (held_of_eq hi).mpr hb
      nonces := by
        refine h'.nonces.shrink ?_
        rintro g ⟨⟩ b hb
        exact (held_of_eq hi).mpr hb
      counted := by
        intro hrepo j nonce' hj
        rcases held_update hj with ⟨g, ⟨⟩, hb⟩ | hj
        · exact h'.counted hrepo ((held_of_eq hi).mpr hb)
        · exact h'.counted hrepo hj
      ids := by
        refine h'.ids.acquire (b := id) ?_ ?_ ?_
        · rintro g ⟨⟩ b ⟨⟩
          exact .inr rfl
        · intro hmem
          obtain ⟨e, he, rfl⟩ := List.mem_map.mp hmem
          exact hfresh (h.store.generated e he).1
        · intro j _ hj
          exact hfresh (h.generated hj).1
      generated := by
        intro j id' hj
        rcases held_update hj with ⟨g, ⟨⟩, ⟨⟩⟩ | hj
        · exact ⟨List.mem_cons_self, hid⟩
        · exact h'.generated hj
      returned := by
        intro j g record hj hstage
        rcases eq_of_update hj with hj | hj
        · cases hj
          cases hstage
        · exact h'.returned hj hstage }

section

variable {record row : PayoutRecord}
variable (h : Agreed svc repo s gs)
variable (hi : gs i = some ⟨some record.payout.idempotencyKey,
  .identified record.payout.nonce record.id⟩)
variable (hsource : record.payout.sourceAccount = svc.sourceAccount)

include hi

theorem holds_identified : Held Creation.holdsKey gs i record.payout.idempotencyKey ∧
    Held Creation.holdsNonce gs i record.payout.nonce ∧ Held Creation.holdsId gs i record.id :=
  ⟨(held_of_eq hi).mpr rfl, (held_of_eq hi).mpr rfl, (held_of_eq hi).mpr rfl⟩

include h hsource

/-- The id, the key and the nonce of the record are not stored. -/
theorem not_stored : record.id ∉ s.entries.map (·.1) ∧
    record.payout.idempotencyKey ∉ s.entries.map (·.2.idempotencyKey) ∧
    (record.payout.sourceAccount, record.payout.nonce) ∉
      s.entries.map fun e => (e.2.sourceAccount, e.2.nonce) := by
  obtain ⟨hkey, hnonce, hid⟩ := holds_identified hi
  rw [hsource]
  exact ⟨h.ids.free hid, h.keys.free hkey, h.nonces.free hnonce⟩

/-- The store accepts the record of a call. -/
theorem not_clashes : ¬ repo.Clashes s record := by
  obtain ⟨hid, hkey, hnonce⟩ := h.not_stored hi hsource
  exact PayoutStore.not_clashes hid hkey hnonce

/-- A call inserts its record, and may not learn of it. -/
theorem inserted (hrow : repo.StoresNew record row) (ho : Creation.Idle o ∨
      o = some ⟨some record.payout.idempotencyKey, .returned record⟩) :
    Agreed svc repo (repo.inserted s row) (Function.update gs i o) := by
  obtain ⟨hkey, hnonce, hid⟩ := holds_identified hi
  obtain ⟨hnewId, hnewKey, hnewNonce⟩ := h.not_stored hi hsource
  have hentry : row.entry = record.entry := PayoutStore.entry_of_storesNew hrow
  have hrowId : row.id = record.id := congrArg Prod.fst hentry
  have hpayout : row.payout = record.payout := congrArg Prod.snd hentry
  have hnew : row.id ∉ s.entries.map (·.1) := hrowId ▸ hnewId
  have hentries : (repo.inserted s row).entries = s.entries ++ [record.entry] := by
    rw [PayoutStore.entries_inserted hnew, hentry]
  have hrest : (repo.inserted s row).generated = s.generated ∧
      (repo.inserted s row).nonceBySource = s.nonceBySource := by
    cases repo with
    | inMemory => exact ⟨rfl, rfl⟩
    | sql => exact ⟨rfl, rfl⟩
    | mongo => exact ⟨rfl, rfl⟩
  have hnothing : ∀ g ∈ o, (∀ key, ¬ g.holdsKey key) ∧ (∀ nonce, ¬ g.holdsNonce nonce) ∧
      ∀ id, ¬ g.holdsId id := by
    intro g hg
    rcases ho with ho | rfl
    · exact ⟨fun _ => ho.key hg, fun _ => ho.nonce hg, fun _ => ho.id hg⟩
    · cases hg
      exact ⟨fun _ => id, fun _ => id, fun _ => id⟩
  refine ⟨?_, ?_, ?_, ?_, ?_, ?_, ?_⟩
  · refine h.store.insert hnew (hrowId ▸ h.generated hid) (hpayout ▸ hnewKey)
      (hpayout ▸ hnewNonce) ?_
    intro hrepo
    rw [hpayout, hsource]
    exact h.counted hrepo hnonce
  · refine h.keys.settle hkey (fun g hg b hb => absurd hb ((hnothing g hg).1 b)) ?_
    intro key hlast
    rw [hentries, List.map_append] at hlast
    exact (List.mem_append.mp hlast).imp_right List.mem_singleton.mp
  · refine h.nonces.settle hnonce (fun g hg b hb => absurd hb ((hnothing g hg).2.1 b)) ?_
    intro nonce hlast
    rw [hentries, List.map_append] at hlast
    refine (List.mem_append.mp hlast).imp_right fun hlast => ?_
    exact congrArg Prod.snd (List.mem_singleton.mp hlast)
  · intro hrepo j nonce hj
    rw [hrest.2]
    rcases held_update hj with ⟨g, hg, hb⟩ | hj
    · exact absurd hb ((hnothing g hg).2.1 nonce)
    · exact h.counted hrepo hj
  · refine h.ids.settle hid (fun g hg b hb => absurd hb ((hnothing g hg).2.2 b)) ?_
    intro id hlast
    rw [hentries, List.map_append] at hlast
    exact (List.mem_append.mp hlast).imp_right List.mem_singleton.mp
  · intro j id hj
    rw [hrest.1]
    rcases held_update hj with ⟨g, hg, hb⟩ | hj
    · exact absurd hb ((hnothing g hg).2.2 id)
    · exact h.generated hj
  · intro j g record' hj hstage
    rw [hentries]
    rcases eq_of_update hj with hj | hj
    · rcases ho with ho | rfl
      · exact absurd hstage (ho.returned hj)
      · cases hj
        cases hstage
        exact ⟨rfl, List.mem_append_right _ (List.mem_singleton_self _)⟩
    · exact (h.returned hj hstage).imp_right (List.mem_append_left _ ·)

end

/-- A request that is rejected without an effect ends its call. -/
theorem refused (h : Agreed svc repo s gs) (key : Option String) :
    Agreed svc repo s (Function.update gs i (some ⟨key, .failed⟩)) :=
  h.idle (Creation.idle_failed key)

/-- A call stays where it is. -/
theorem stay (h : Agreed svc repo s gs) {g : Creation} (hi : gs i = some g) :
    Agreed svc repo s (Function.update gs i (some g)) := by
  rw [← hi, Function.update_eq_self]
  exact h

end Agreed

/-! ## Runs -/

/-- The calls to `createPayoutTransaction` and the store. -/
abbrev PayoutSystem := System PayoutAnswer PaymentError BuildPayoutResult PayoutStore

abbrev PayoutEvent := Event PayoutAnswer PaymentError PayoutInput Repository.PayoutMove

variable (svc) in
/-- Where a call stands that has not failed. -/
abbrev stands (tr : List (PayoutSystem × PayoutEvent)) (t : PayoutSystem) : ℕ → Option Creation :=
  standing (creating svc) Creation.first tr t

variable (svc repo) in
/-- A call finds no record only while no other call with its key is under way; in the
    databases it reserves only a nonce that no other call has reserved and not stored. -/
def Alone (tr : List (PayoutSystem × PayoutEvent)) (t : PayoutSystem) : PayoutEvent → Prop
  | .reply i (.served (.findByIdempotencyKey key) none) =>
    ∀ j ∈ started tr, j ≠ i → ¬ Held Creation.holdsKey (stands svc tr t) j key
  | .reply i (.served (.reserveNextNonce _) nonce) => repo = .inMemory ∨
    ∀ j ∈ started tr, j ≠ i → ¬ Held Creation.holdsNonce (stands svc tr t) j nonce
  | _ => True

instance (tr : List (PayoutSystem × PayoutEvent)) (t : PayoutSystem) :
    (ev : PayoutEvent) → Decidable (Alone svc repo tr t ev)
  | .reply i (.served (.findByIdempotencyKey key) none) =>
    inferInstanceAs (Decidable (∀ j ∈ started tr, j ≠ i →
      ¬ Held Creation.holdsKey (stands svc tr t) j key))
  | .reply i (.served (.reserveNextNonce _) nonce) =>
    inferInstanceAs (Decidable (repo = .inMemory ∨ ∀ j ∈ started tr, j ≠ i →
      ¬ Held Creation.holdsNonce (stands svc tr t) j nonce))
  | .reply _ (.served (.findByIdempotencyKey _) (some _)) => isTrue trivial
  | .reply _ (.served .now _) => isTrue trivial
  | .reply _ (.served .generateRecordId _) => isTrue trivial
  | .reply _ (.served (.findById _) _) => isTrue trivial
  | .reply _ (.served (.insert _) _) => isTrue trivial
  | .reply _ (.served (.update _ _) _) => isTrue trivial
  | .reply _ (.served (.getAccount _) _) => isTrue trivial
  | .reply _ (.served (.prepareTransaction _) _) => isTrue trivial
  | .reply _ (.lost _ _ _) => isTrue trivial
  | .reply _ (.refused _ _) => isTrue trivial
  | .start _ _ => isTrue trivial
  | .moved _ => isTrue trivial

/-- What a call holds, a started call holds. -/
theorem not_held_of_started {β : Type} {f : Creation → β → Prop} {b : β}
    {tr : List (PayoutSystem × PayoutEvent)} {t : PayoutSystem}
    (h : ∀ j ∈ started tr, j ≠ i → ¬ Held f (stands svc tr t) j b) (j : ℕ) (hj : j ≠ i) :
    ¬ Held f (stands svc tr t) j b := by
  rintro ⟨g, hg, hb⟩
  exact h j (mem_started (standing_eq_some hg)) hj ⟨g, hg, hb⟩

/-- A request that fails may have taken effect. -/
theorem Agreed.error (h : Agreed svc repo s gs) {g : Creation} {q : PayoutRequest}
    {a : PayoutAnswer q} (hi : gs i = some g) (hallowed : g.allows svc q)
    (hserves : repo.servesPayouts i q s a s') :
    Agreed svc repo s' (Function.update gs i (some ⟨g.key, .failed⟩)) := by
  cases q with
  | now =>
    cases hserves
    exact h.refused g.key
  | generateRecordId =>
    obtain ⟨-, -, rfl⟩ := hserves
    exact (h.of_extends (PayoutStore.extends_generated _)).refused g.key
  | findByIdempotencyKey key =>
    obtain ⟨-, rfl⟩ := hserves
    exact h.refused g.key
  | findById id => exact hallowed.elim
  | reserveNextNonce source =>
    obtain ⟨-, rfl⟩ := hserves
    exact (h.of_extends (PayoutStore.extends_reserved source)).refused g.key
  | insert record =>
    obtain ⟨-, -, row, hrow, rfl⟩ := hserves
    obtain ⟨key, stage⟩ := g
    obtain ⟨rfl, rfl, hsource⟩ := hallowed
    exact h.inserted hi hsource hrow (.inl (Creation.idle_failed _))
  | update id patch => exact hallowed.elim
  | getAccount source =>
    cases hserves
    exact h.refused g.key
  | prepareTransaction built =>
    cases hserves
    exact h.refused g.key

/-- A request that is fulfilled. -/
theorem Agreed.ok {tr : List (PayoutSystem × PayoutEvent)} {t : PayoutSystem}
    (h : Agreed svc repo t.shared (stands svc tr t)) {g : Creation} {q : PayoutRequest}
    {a : PayoutAnswer q} (halone : Alone svc repo tr t (.reply i (.served q a)))
    (hi : stands svc tr t i = some g) (hallowed : g.allows svc q)
    (hserves : repo.servesPayouts i q t.shared a s') :
    Agreed svc repo s' (Function.update (stands svc tr t) i (some ⟨g.key, g.stage.next q a⟩)) := by
  cases q with
  | now =>
    cases hserves
    exact h.stay hi
  | generateRecordId =>
    obtain ⟨hid, hfresh, rfl⟩ := hserves
    obtain ⟨key, stage⟩ := g
    obtain ⟨nonce, rfl⟩ := hallowed
    exact h.identified hi hid hfresh
  | findByIdempotencyKey key =>
    obtain ⟨ha, rfl⟩ := hserves
    obtain ⟨key', stage⟩ := g
    obtain ⟨rfl, rfl⟩ := hallowed
    cases a with
    | some record => exact h.found ha.symm
    | none => exact h.missing ha.symm (not_held_of_started halone)
  | findById id => exact hallowed.elim
  | reserveNextNonce source =>
    obtain ⟨rfl, rfl⟩ := hserves
    obtain ⟨key, stage⟩ := g
    obtain ⟨rfl, rfl⟩ := hallowed
    refine h.reserved hi ?_
    rcases halone with rfl | hothers
    · exact fun j _ => h.not_held_of_inMemory j
    · exact not_held_of_started hothers
  | insert record =>
    obtain ⟨-, -, row, hrow, rfl⟩ := hserves
    obtain ⟨key, stage⟩ := g
    obtain ⟨rfl, rfl, hsource⟩ := hallowed
    exact h.inserted hi hsource hrow (.inr rfl)
  | update id patch => exact hallowed.elim
  | getAccount source =>
    cases hserves
    exact h.stay hi
  | prepareTransaction built =>
    cases hserves
    exact h.stay hi

section

variable {tr : List (PayoutSystem × PayoutEvent)} {t : PayoutSystem}
variable (hrun : Run (System.Step (createPayoutTransaction svc) repo.payoutServer) (.idle s) tr t)

include hrun

/-- The store and the calls agree as long as no two calls get in each other's way. -/
theorem agreed_of_run (hs : s.Consistent repo) (halone : EachStep (Alone svc repo) tr) :
    Agreed svc repo t.shared (stands svc tr t) := by
  refine standing_of_run (Q := Returned) (fun _ => trivial) (createPayoutTransaction_follows svc)
    ?_ ?_ ?_ ?_ ?_ hrun halone
  · exact
      { store := hs
        keys := .nobody
        nonces := .nobody
        counted := fun _ _ _ h => absurd h not_held_nobody
        ids := .nobody
        generated := fun h => absurd h not_held_nobody
        returned := fun h => nomatch h }
  · exact fun i h => h.idle Creation.idle_none
  · exact fun i input h _ => h.idle (Creation.idle_first input)
  · intro tr t i g r s' halone h hi hallowed hreply
    cases hreply with
    | served hserves => exact h.ok halone hi hallowed hserves
    | lost hserves => exact h.error hi hallowed hserves
    | refused => exact h.refused g.key
  · rintro s gs m s' h ⟨rows, hrows, rfl⟩
    exact h.of_extends (PayoutStore.extends_of_rows hrows)

/-- Each call keeps to the discipline. -/
theorem follows_place (i : ℕ) :
    Option.Rel (fun p g => Async.Follows (creating svc) p g Returned) (t.running i)
      (placeOf (creating svc) Creation.first i tr) :=
  follows_of_run (fun _ => trivial) (createPayoutTransaction_follows svc) hrun i

/-- A call that has returned stands where it has returned its record. -/
theorem returned_of_run {i : ℕ} {input : PayoutInput} {result : BuildPayoutResult}
    (hinput : inputOf i tr = some input) (hi : t.running i = some (.done (.ok result))) :
    stands svc tr t i = some ⟨keyOf input, .returned result.transaction⟩ := by
  obtain ⟨g, hg, hreturned⟩ := place_of_done (follows_place hrun i) hi
  have hkey : (placeOf (creating svc) Creation.first i tr).map Creation.key =
      (inputOf i tr).map fun input => (Creation.first input).key :=
    map_placeOf (fun g q a => by cases a <;> rfl) i tr
  rw [hg, hinput] at hkey
  obtain ⟨key, stage⟩ := g
  have hstage : stage = .returned result.transaction := hreturned result rfl
  have hkey' : key = keyOf input := Option.some.inj hkey
  rw [show stands svc tr t i = placeOf (creating svc) Creation.first i tr from standing_of_ok hi,
    hg, hstage, hkey']

/-- A call that is about to insert its record stands so. -/
theorem identified_of_run {i : ℕ} {record : PayoutRecord}
    {k : Except PaymentError Unit → PayoutProgram BuildPayoutResult}
    (hi : t.running i = some (.await (.insert record) k)) :
    stands svc tr t i = some ⟨some record.payout.idempotencyKey,
      .identified record.payout.nonce record.id⟩ ∧
      record.payout.sourceAccount = svc.sourceAccount := by
  obtain ⟨g, hg, hallowed⟩ := place_of_await (follows_place hrun i) hi
  obtain ⟨key, stage⟩ := g
  obtain ⟨rfl, rfl, hsource⟩ := hallowed
  exact ⟨(standing_of_await hi).trans hg, hsource⟩

end

/-! ## Idempotence -/

variable (repo) in
/-- The creation of payouts is idempotent: at most one record is stored for a key, calls
    with the same key have returned the same record, no two records of an account share
    a nonce, and no call is about to insert a record that the store would refuse. -/
structure Idempotent (tr : List (PayoutSystem × PayoutEvent)) (t : PayoutSystem) : Prop where
  one : (t.shared.rows.map (·.payout.idempotencyKey)).Nodup
  same : ∀ i j input input' result result', inputOf i tr = some input →
    inputOf j tr = some input' → keyOf input = keyOf input' →
    t.running i = some (.done (.ok result)) → t.running j = some (.done (.ok result')) →
    result.transaction.entry = result'.transaction.entry
  nonces : (t.shared.rows.map fun row => (row.payout.sourceAccount, row.payout.nonce)).Nodup
  accepted : ∀ i record k, t.running i = some (.await (.insert record) k) →
    ¬ repo.Clashes t.shared record

/-- Creation is idempotent in every run in which no two calls get in each other's way. -/
theorem payouts_idempotent (svc : PayoutService) (repo : Repository) {s : PayoutStore}
    (hs : s.Consistent repo) {tr : List (PayoutSystem × PayoutEvent)} {t : PayoutSystem}
    (hrun : Run (System.Step (createPayoutTransaction svc) repo.payoutServer) (.idle s) tr t)
    (halone : EachStep (Alone svc repo) tr) : AlongRun (Idempotent repo) tr t := by
  refine hrun.alongRun_of_each ?_ halone
  intro tr t hrun halone
  have hagreed := agreed_of_run hrun hs halone
  have hkeys := hagreed.store.keys
  have hnonces := hagreed.store.nonces
  unfold PayoutStore.entries at hkeys hnonces
  rw [List.map_map] at hkeys hnonces
  refine ⟨hkeys, ?_, hnonces, ?_⟩
  · intro i j input input' result result' hi hj hsame hri hrj
    obtain ⟨hkey, hmem⟩ := hagreed.returned (returned_of_run hrun hi hri) rfl
    obtain ⟨hkey', hmem'⟩ := hagreed.returned (returned_of_run hrun hj hrj) rfl
    have heq : result.transaction.payout.idempotencyKey =
        result'.transaction.payout.idempotencyKey := by
      have hboth : keyOf input = keyOf input' := hsame
      rw [show keyOf input = _ from hkey, show keyOf input' = _ from hkey'] at hboth
      exact Option.some.inj hboth
    exact List.inj_on_of_nodup_map hagreed.store.keys hmem hmem' heq
  · intro i record k hi
    obtain ⟨hstands, hsource⟩ := identified_of_run hrun hi
    exact hagreed.not_clashes hstands hsource

/-! ## Two calls side by side -/

/-- The service as it is configured in its tests. -/
def samplePayouts : PayoutService where
  liveExecution := true
  signWithHotKey := false
  hotSignerSecret := none
  maxGasStroops := 2000000
  payoutMethodName := "distribute_winnings"
  payoutContractId := "CAAAAAAAAAAAAAAAAAAAAAAAAAAAAAAAAAAAAAAAAAAAAAAAAAAAD2KM"
  sourceAccount := "GBRPYHIL2CI3FNQ4BXLFMNDLFJUNPU2HY3ZMFSHONUCEOASW7QC7OX2H"
  sdk := sampleSdk fun _ => none
  zodMessage _ := "invalid"

/-- A payout of ten XLM. -/
def sampleInput (idempotencyKey : String) : PayoutInput where
  payoutId := some "1"
  destinationAccount := some "GBRPYHIL2CI3FNQ4BXLFMNDLFJUNPU2HY3ZMFSHONUCEOASW7QC7OX2H"
  amount := some "10.5"
  asset := some "XLM"
  idempotencyKey := some idempotencyKey

/-- Moves of the calls. -/
abbrev PayoutScript := List (Async.Move PaymentError PayoutInput Repository.PayoutMove String)

/-- Two calls look their keys up, then the first one is served to its end, and the second
    one as far as it may be. -/
def sideBySide (key key' : String) (requests : ℕ) : PayoutScript :=
  [.start 0 (sampleInput key), .start 1 (sampleInput key'), .serve 0 "a", .serve 1 "b",
    .serve 0 "a", .serve 1 "b"] ++ List.replicate 5 (.serve 0 "a") ++
    List.replicate requests (.serve 1 "b")

/-- The program is about to insert a record that the store refuses. -/
def refusedInsert (repo : Repository) (t : PayoutSystem) (i : ℕ) : Bool :=
  match t.running i with
  | some (.await (.insert record) _) => decide (repo.Clashes t.shared record)
  | _ => false

theorem exists_refused {repo : Repository} {t : PayoutSystem} {i : ℕ}
    (h : refusedInsert repo t i = true) : ∃ record k,
      t.running i = some (.await (.insert record) k) ∧ repo.Clashes t.shared record := by
  unfold refusedInsert at h
  split at h
  · exact ⟨_, _, ‹_›, of_decide_eq_true h⟩
  · cases h

/-- In memory two calls with one key store two records. In SQL the second of two calls
    with different keys is refused, and in MongoDB they share a nonce. -/
theorem not_payouts_idempotent :
    (∃ tr t, Run (System.Step (createPayoutTransaction samplePayouts)
        Repository.inMemory.payoutServer) (.idle .empty) tr t ∧
      t.shared.rows.map (·.payout.idempotencyKey) = ["payout:1", "payout:1"] ∧
      ¬ Idempotent .inMemory tr t) ∧
    (∃ tr t, Run (System.Step (createPayoutTransaction samplePayouts)
        Repository.sql.payoutServer) (.idle .empty) tr t ∧
      refusedInsert .sql t 1 = true ∧ ¬ Idempotent .sql tr t) ∧
    (∃ tr t, Run (System.Step (createPayoutTransaction samplePayouts)
        Repository.mongo.payoutServer) (.idle .empty) tr t ∧
      t.shared.rows.map (·.payout.nonce) = [1, 1] ∧ ¬ Idempotent .mongo tr t) := by
  refine ⟨?_, ?_, ?_⟩
  · have hreplay : ∃ r ∈ replay (Repository.inMemory.workingPayouts.perform
        (createPayoutTransaction samplePayouts)) (sideBySide "payout:1" "payout:1" 5) []
        (.idle .empty),
        r.2.shared.rows.map (·.payout.idempotencyKey) = ["payout:1", "payout:1"] := by
      decide +kernel
    obtain ⟨tr, t, hrun, hrows⟩ := exists_run_of_replay (P := fun _ (t : PayoutSystem) =>
      t.shared.rows.map (·.payout.idempotencyKey) = ["payout:1", "payout:1"])
      (Repository.inMemory.workingPayouts.perform_step) hreplay
    refine ⟨tr, t, hrun, hrows, fun h => ?_⟩
    have hone := h.one
    rw [hrows] at hone
    exact absurd hone (by decide)
  · have hreplay : ∃ r ∈ replay (Repository.sql.workingPayouts.perform
        (createPayoutTransaction samplePayouts)) (sideBySide "payout:1" "payout:2" 4) []
        (.idle .empty), refusedInsert .sql r.2 1 = true := by
      decide +kernel
    obtain ⟨tr, t, hrun, hrefused⟩ := exists_run_of_replay (P := fun _ (t : PayoutSystem) =>
      refusedInsert .sql t 1 = true) (Repository.sql.workingPayouts.perform_step) hreplay
    obtain ⟨record, k, hi, hclashes⟩ := exists_refused hrefused
    exact ⟨tr, t, hrun, hrefused, fun h => h.accepted 1 record k hi hclashes⟩
  · have hreplay : ∃ r ∈ replay (Repository.mongo.workingPayouts.perform
        (createPayoutTransaction samplePayouts)) (sideBySide "payout:1" "payout:2" 5) []
        (.idle .empty), r.2.shared.rows.map (·.payout.nonce) = [1, 1] ∧
          ¬ (r.2.shared.rows.map fun row => (row.payout.sourceAccount, row.payout.nonce)).Nodup := by
      decide +kernel
    obtain ⟨tr, t, hrun, hrows, hnonces⟩ := exists_run_of_replay (P := fun _ (t : PayoutSystem) =>
      t.shared.rows.map (·.payout.nonce) = [1, 1] ∧
        ¬ (t.shared.rows.map fun row => (row.payout.sourceAccount, row.payout.nonce)).Nodup)
      (Repository.mongo.workingPayouts.perform_step) hreplay
    exact ⟨tr, t, hrun, hrows, fun h => hnonces h.nonces⟩

/-- Two calls with one key, one after the other, in MongoDB. -/
theorem payouts_idempotent_sample : ∃ tr t,
    Run (System.Step (createPayoutTransaction samplePayouts) Repository.mongo.payoutServer)
      (.idle .empty) tr t ∧
      t.shared.rows.map (·.payout.idempotencyKey) = ["payout:1"] ∧
      AlongRun (Idempotent .mongo) tr t := by
  obtain ⟨tr, t, hrun, hrows, halone⟩ : ∃ tr t,
      Run (System.Step (createPayoutTransaction samplePayouts) Repository.mongo.payoutServer)
        (.idle .empty) tr t ∧
        t.shared.rows.map (·.payout.idempotencyKey) = ["payout:1"] ∧
        EachStep (Alone samplePayouts .mongo) tr := by
    have hreplay : ∃ r ∈ replay (Repository.mongo.workingPayouts.perform
        (createPayoutTransaction samplePayouts))
        (.start 0 (sampleInput "payout:1") :: List.replicate 7 (.serve 0 "a") ++
          [.start 1 (sampleInput "payout:1"), .serve 1 "b"]) [] (.idle .empty),
        r.2.shared.rows.map (·.payout.idempotencyKey) = ["payout:1"] ∧
          EachStep (Alone samplePayouts .mongo) r.1 := by
      decide +kernel
    exact exists_run_of_replay (Repository.mongo.workingPayouts.perform_step) hreplay
  exact ⟨tr, t, hrun, hrows,
    payouts_idempotent samplePayouts .mongo (PayoutStore.empty_consistent _) hrun halone⟩

end InverseArena.Backend.Payments
