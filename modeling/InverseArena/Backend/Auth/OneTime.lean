import InverseArena.Backend.Auth.Calls
import InverseArena.Library.Holdings
import InverseArena.Library.Places
import Mathlib.Data.List.Nodup

/-!
# Are one-time credentials used once?

A login finds a nonce, checks the signature and marks the nonce as used; a refresh and
the consumption of a confirmation token do the same with theirs. The mark does not look
at the document again, so that calls side by side may all have found it unused.

Results:
* `credentials_used_once`: each credential authorises at most one call that succeeds, in
  every run in which no call finds a credential unused that another call has found and
  not used up yet.
* `not_credentials_used_once`: two logins, two refreshes and two confirmations side by
  side.
-/

namespace InverseArena.Backend.Auth

open Async Transition Holdings

/-! ## Used credentials -/

namespace AuthStore

/-- The credential is marked as used. -/
def Spent (s : AuthStore) : Credential → Prop
  | .nonce id => ∃ nonce ∈ s.nonces, nonce.id = id ∧ nonce.used = true
  | .refresh tokenHash => ∃ row ∈ s.refreshTokens, row.tokenHash = tokenHash ∧ row.used = true
  | .confirmation tokenHash =>
    ∃ record ∈ s.confirmations, record.tokenHash = tokenHash ∧ record.used = true

/-- The credential is stored under the id of its document. -/
def Stores (s : AuthStore) : Credential → ℕ → Prop
  | .nonce id', id => id' = id ∧ ∃ nonce ∈ s.nonces, nonce.id = id
  | .refresh tokenHash, id => ∃ row ∈ s.refreshTokens, row.tokenHash = tokenHash ∧ row.id = id
  | .confirmation tokenHash, id =>
    ∃ record ∈ s.confirmations, record.tokenHash = tokenHash ∧ record.id = id

/-- The documents are numbered, and the hashes of tokens are unique. -/
structure Keyed (s : AuthStore) : Prop where
  nonces : s.nonces.map (·.id) = List.range s.nonces.length
  refreshHashes : (s.refreshTokens.map (·.tokenHash)).Nodup
  confirmationHashes : (s.confirmations.map (·.tokenHash)).Nodup

theorem empty_keyed : empty.Keyed := ⟨rfl, List.nodup_nil, List.nodup_nil⟩

/-- Documents stay, and what is used stays used. -/
structure Grows (s s' : AuthStore) : Prop where
  keyed : s.Keyed → s'.Keyed
  spent : ∀ c, s.Spent c → s'.Spent c
  stores : ∀ c id, s.Stores c id → s'.Stores c id

variable {s s' : AuthStore}

theorem Grows.refl (s : AuthStore) : s.Grows s := ⟨id, fun _ => id, fun _ _ => id⟩

/-- Nothing but Redis, the users, the clock or the numbers drawn has changed. -/
theorem Grows.of_same (hnonces : s'.nonces = s.nonces)
    (hrefresh : s'.refreshTokens = s.refreshTokens)
    (hconfirmations : s'.confirmations = s.confirmations) : s.Grows s' := by
  refine ⟨fun h => ⟨?_, ?_, ?_⟩, fun c h => ?_, fun c id h => ?_⟩
  · rw [hnonces]
    exact h.nonces
  · rw [hrefresh]
    exact h.refreshHashes
  · rw [hconfirmations]
    exact h.confirmationHashes
  · cases c with
    | nonce id => simpa only [Spent, hnonces] using h
    | refresh tokenHash => simpa only [Spent, hrefresh] using h
    | confirmation tokenHash => simpa only [Spent, hconfirmations] using h
  · cases c with
    | nonce id => simpa only [Stores, hnonces] using h
    | refresh tokenHash => simpa only [Stores, hrefresh] using h
    | confirmation tokenHash => simpa only [Stores, hconfirmations] using h

theorem grows_useNonces (p : NonceDocument → Bool) : s.Grows (s.useNonces p) := by
  have hids : (s.useNonces p).nonces.map (·.id) = s.nonces.map (·.id) := by
    unfold useNonces
    rw [List.map_map]
    refine List.map_congr_left fun nonce _ => ?_
    dsimp only [Function.comp]
    split <;> rfl
  have hlength : (s.useNonces p).nonces.length = s.nonces.length := List.length_map ..
  have hmem : ∀ nonce ∈ s.nonces, ∃ nonce' ∈ (s.useNonces p).nonces,
      nonce'.id = nonce.id ∧ (nonce.used = true → nonce'.used = true) := by
    intro nonce hnonce
    refine ⟨_, List.mem_map_of_mem hnonce, ?_⟩
    split
    · exact ⟨rfl, fun _ => rfl⟩
    · exact ⟨rfl, id⟩
  refine ⟨fun h => ⟨?_, h.refreshHashes, h.confirmationHashes⟩, fun c h => ?_, fun c id h => ?_⟩
  · rw [hids, hlength]
    exact h.nonces
  · cases c with
    | nonce id =>
      obtain ⟨nonce, hnonce, hid, hused⟩ := h
      obtain ⟨nonce', hnonce', hid', hused'⟩ := hmem nonce hnonce
      exact ⟨nonce', hnonce', hid'.trans hid, hused' hused⟩
    | refresh tokenHash => exact h
    | confirmation tokenHash => exact h
  · cases c with
    | nonce id' =>
      obtain ⟨hid, nonce, hnonce, hid'⟩ := h
      obtain ⟨nonce', hnonce', hid'', -⟩ := hmem nonce hnonce
      exact ⟨hid, nonce', hnonce', hid''.trans hid'⟩
    | refresh tokenHash => exact h
    | confirmation tokenHash => exact h

theorem grows_useConfirmations (p : ConfirmationTokenDocument → Bool) :
    s.Grows (s.useConfirmations p) := by
  have hhashes : (s.useConfirmations p).confirmations.map (·.tokenHash) =
      s.confirmations.map (·.tokenHash) := by
    unfold useConfirmations
    rw [List.map_map]
    refine List.map_congr_left fun record _ => ?_
    dsimp only [Function.comp]
    split <;> rfl
  have hmem : ∀ record ∈ s.confirmations, ∃ record' ∈ (s.useConfirmations p).confirmations,
      record'.tokenHash = record.tokenHash ∧ record'.id = record.id ∧
        (record.used = true → record'.used = true) := by
    intro record hrecord
    refine ⟨_, List.mem_map_of_mem hrecord, ?_⟩
    split
    · exact ⟨rfl, rfl, fun _ => rfl⟩
    · exact ⟨rfl, rfl, id⟩
  refine ⟨fun h => ⟨h.nonces, h.refreshHashes, ?_⟩, fun c h => ?_, fun c id h => ?_⟩
  · rw [hhashes]
    exact h.confirmationHashes
  · cases c with
    | nonce id => exact h
    | refresh tokenHash => exact h
    | confirmation tokenHash =>
      obtain ⟨record, hrecord, hhash, hused⟩ := h
      obtain ⟨record', hrecord', hhash', -, hused'⟩ := hmem record hrecord
      exact ⟨record', hrecord', hhash'.trans hhash, hused' hused⟩
  · cases c with
    | nonce id' => exact h
    | refresh tokenHash => exact h
    | confirmation tokenHash =>
      obtain ⟨record, hrecord, hhash, hid⟩ := h
      obtain ⟨record', hrecord', hhash', hid', -⟩ := hmem record hrecord
      exact ⟨record', hrecord', hhash'.trans hhash, hid'.trans hid⟩

theorem hashes_mapRefreshTokens (p : RefreshTokenDocument → Bool)
    {f : RefreshTokenDocument → RefreshTokenDocument}
    (hf : ∀ row, (f row).tokenHash = row.tokenHash) :
    (s.mapRefreshTokens p f).refreshTokens.map (·.tokenHash) =
      s.refreshTokens.map (·.tokenHash) := by
  unfold mapRefreshTokens
  rw [List.map_map]
  refine List.map_congr_left fun row _ => ?_
  dsimp only [Function.comp]
  split
  · exact hf row
  · rfl

/-- Refresh tokens are marked, but not unmarked. -/
theorem grows_mapRefreshTokens (p : RefreshTokenDocument → Bool)
    {f : RefreshTokenDocument → RefreshTokenDocument}
    (hf : ∀ row, (f row).tokenHash = row.tokenHash ∧ (f row).id = row.id ∧
      (row.used = true → (f row).used = true)) : s.Grows (s.mapRefreshTokens p f) := by
  have hmem : ∀ row ∈ s.refreshTokens, ∃ row' ∈ (s.mapRefreshTokens p f).refreshTokens,
      row'.tokenHash = row.tokenHash ∧ row'.id = row.id ∧ (row.used = true → row'.used = true) := by
    intro row hrow
    refine ⟨_, List.mem_map_of_mem hrow, ?_⟩
    split
    · exact hf row
    · exact ⟨rfl, rfl, id⟩
  refine ⟨fun h => ⟨h.nonces, ?_, h.confirmationHashes⟩, fun c h => ?_, fun c id h => ?_⟩
  · rw [hashes_mapRefreshTokens p fun row => (hf row).1]
    exact h.refreshHashes
  · cases c with
    | nonce id => exact h
    | refresh tokenHash =>
      obtain ⟨row, hrow, hhash, hused⟩ := h
      obtain ⟨row', hrow', hhash', -, hused'⟩ := hmem row hrow
      exact ⟨row', hrow', hhash'.trans hhash, hused' hused⟩
    | confirmation tokenHash => exact h
  · cases c with
    | nonce id' => exact h
    | refresh tokenHash =>
      obtain ⟨row, hrow, hhash, hid⟩ := h
      obtain ⟨row', hrow', hhash', hid', -⟩ := hmem row hrow
      exact ⟨row', hrow', hhash'.trans hhash, hid'.trans hid⟩
    | confirmation tokenHash => exact h

/-- Documents are added. -/
theorem Grows.of_subset (hkeyed : s.Keyed → s'.Keyed) (hnonces : s.nonces ⊆ s'.nonces)
    (hrefresh : s.refreshTokens ⊆ s'.refreshTokens)
    (hconfirmations : s.confirmations ⊆ s'.confirmations) : s.Grows s' := by
  refine ⟨hkeyed, fun c h => ?_, fun c id h => ?_⟩
  · cases c with
    | nonce id =>
      obtain ⟨nonce, hnonce, hmarked⟩ := h
      exact ⟨nonce, hnonces hnonce, hmarked⟩
    | refresh tokenHash =>
      obtain ⟨row, hrow, hmarked⟩ := h
      exact ⟨row, hrefresh hrow, hmarked⟩
    | confirmation tokenHash =>
      obtain ⟨record, hrecord, hmarked⟩ := h
      exact ⟨record, hconfirmations hrecord, hmarked⟩
  · cases c with
    | nonce id' =>
      obtain ⟨hid, nonce, hnonce, hid'⟩ := h
      exact ⟨hid, nonce, hnonces hnonce, hid'⟩
    | refresh tokenHash =>
      obtain ⟨row, hrow, hstored⟩ := h
      exact ⟨row, hrefresh hrow, hstored⟩
    | confirmation tokenHash =>
      obtain ⟨record, hrecord, hstored⟩ := h
      exact ⟨record, hconfirmations hrecord, hstored⟩

/-- A new key keeps the keys unique. -/
theorem nodup_map_append {β κ : Type} {f : β → κ} {l : List β} {b : β} (h : (l.map f).Nodup)
    (hnew : ∀ x ∈ l, f x ≠ f b) : ((l ++ [b]).map f).Nodup := by
  rw [List.map_append, List.map_singleton, List.nodup_append]
  refine ⟨h, List.pairwise_singleton _ _, ?_⟩
  intro key hkey key' hkey' heq
  obtain ⟨x, hx, rfl⟩ := List.mem_map.mp hkey
  exact hnew x hx (heq.trans (List.mem_singleton.mp hkey'))

/-- Every request keeps the documents and what is used. -/
theorem grows_of_serves {i : ℕ} {q : AuthRequest} {a : AuthAnswer q}
    (h : authServer.serves i q s a s') : s.Grows s' := by
  cases q with
  | now =>
    obtain ⟨-, rfl⟩ := h
    exact .refl s'
  | random =>
    obtain ⟨-, -, rfl⟩ := h
    exact .of_same rfl rfl rfl
  | retireNonces walletAddress now =>
    cases h
    exact grows_useNonces _
  | createNonce walletAddress nonce expiresAt =>
    cases h
    refine .of_subset (fun hk => ⟨?_, hk.refreshHashes, hk.confirmationHashes⟩)
      (List.subset_append_left _ _) (fun _ => id) (fun _ => id)
    dsimp only
    rw [List.map_append, hk.nonces, List.length_append]
    exact List.range_succ.symm
  | findNonce walletAddress now =>
    obtain ⟨-, rfl⟩ := h
    exact .refl s'
  | useNonce id =>
    cases h
    exact grows_useNonces _
  | upsertUser walletAddress now =>
    have h' : Upserts s walletAddress now a s' := h
    unfold Upserts at h'
    split at h'
    · obtain ⟨-, rfl⟩ := h'
      exact .of_same rfl rfl rfl
    · obtain ⟨-, -, -, -, rfl⟩ := h'
      exact .of_same rfl rfl rfl
  | createRefreshToken tokenHash familyId userId expiresAt =>
    obtain ⟨hnew, rfl⟩ := h
    exact .of_subset
      (fun hk => ⟨hk.nonces, nodup_map_append hk.refreshHashes hnew, hk.confirmationHashes⟩)
      (fun _ => id) (List.subset_append_left _ _) (fun _ => id)
  | findRefreshToken tokenHash =>
    obtain ⟨-, rfl⟩ := h
    exact .refl s'
  | useRefreshToken id =>
    cases h
    exact grows_mapRefreshTokens _ fun _ => ⟨rfl, rfl, fun _ => rfl⟩
  | revokeFamily familyId =>
    cases h
    exact grows_mapRefreshTokens _ fun _ => ⟨rfl, rfl, id⟩
  | revokeUser userId =>
    cases h
    exact grows_mapRefreshTokens _ fun _ => ⟨rfl, rfl, id⟩
  | createConfirmation adminId tokenHash action resourceId expiresAt =>
    obtain ⟨hnew, rfl⟩ := h
    exact .of_subset
      (fun hk => ⟨hk.nonces, hk.refreshHashes, nodup_map_append hk.confirmationHashes hnew⟩)
      (fun _ => id) (fun _ => id) (List.subset_append_left _ _)
  | findConfirmation tokenHash =>
    obtain ⟨-, rfl⟩ := h
    exact .refl s'
  | useConfirmation id =>
    cases h
    exact grows_useConfirmations _
  | get jti =>
    obtain ⟨-, rfl⟩ := h
    exact .refl s'
  | set jti walletAddress ttl =>
    cases h
    exact .of_same rfl rfl rfl
  | sadd walletAddress jti =>
    cases h
    exact .of_same rfl rfl rfl
  | del jti =>
    cases h
    exact .of_same rfl rfl rfl
  | srem walletAddress jti =>
    cases h
    exact .of_same rfl rfl rfl
  | smembers walletAddress =>
    obtain ⟨-, rfl⟩ := h
    exact .refl s'
  | delWallet walletAddress =>
    cases h
    exact .of_same rfl rfl rfl
  | execDeletes jtis walletAddress =>
    obtain ⟨-, rfl⟩ := h
    exact .of_same rfl rfl rfl

end AuthStore

/-! ## Unused credentials -/

/-- The unused credential that an answer hands out, and its document. -/
def unusedOf : (q : AuthRequest) → AuthAnswer q → Option (Credential × ℕ)
  | .findNonce _ _, some nonce => some (.nonce nonce.id, nonce.id)
  | .findRefreshToken _, some row =>
    if row.revoked = false ∧ row.used = false then some (.refresh row.tokenHash, row.id) else none
  | .findConfirmation _, some record =>
    if record.used = false then some (.confirmation record.tokenHash, record.id) else none
  | _, _ => none

theorem unusedOf_findRefreshToken (tokenHash : String) (row : RefreshTokenDocument) :
    unusedOf (.findRefreshToken tokenHash) (some row) =
      if row.revoked = false ∧ row.used = false then some (.refresh row.tokenHash, row.id)
      else none := rfl

theorem unusedOf_findConfirmation (tokenHash : String) (record : ConfirmationTokenDocument) :
    unusedOf (.findConfirmation tokenHash) (some record) =
      if record.used = false then some (.confirmation record.tokenHash, record.id)
      else none := rfl

/-- The requests that mark a document as used. -/
def marks : AuthRequest → Bool
  | .useNonce _ => true
  | .useRefreshToken _ => true
  | .useConfirmation _ => true
  | _ => false

variable {s s' : AuthStore} {i j : ℕ}

/-- A credential that is handed out is stored. -/
theorem AuthStore.stores_of_unused {q : AuthRequest} {a : AuthAnswer q}
    (h : authServer.serves i q s a s') {c : Credential} {id : ℕ}
    (hc : unusedOf q a = some (c, id)) : s' = s ∧ s.Stores c id := by
  unfold unusedOf at hc
  split at hc
  · rename_i walletAddress now nonce
    cases hc
    obtain ⟨⟨hmem, -, -⟩, rfl⟩ := h
    exact ⟨rfl, rfl, nonce, hmem, rfl⟩
  · rename_i tokenHash row
    split at hc
    · cases hc
      obtain ⟨hfound, rfl⟩ := h
      exact ⟨rfl, row, List.mem_of_find?_eq_some hfound.symm, rfl, rfl⟩
    · cases hc
  · rename_i tokenHash record
    split at hc
    · cases hc
      obtain ⟨hfound, rfl⟩ := h
      exact ⟨rfl, record, List.mem_of_find?_eq_some hfound.symm, rfl, rfl⟩
    · cases hc
  · cases hc

/-- A credential that is handed out is not marked. -/
theorem AuthStore.Keyed.not_spent (hkeyed : s.Keyed) {q : AuthRequest} {a : AuthAnswer q}
    (h : authServer.serves i q s a s') {c : Credential} {id : ℕ}
    (hc : unusedOf q a = some (c, id)) : ¬ s.Spent c := by
  unfold unusedOf at hc
  split at hc
  · cases hc
    obtain ⟨⟨hmem, hpending, -⟩, rfl⟩ := h
    rintro ⟨other, hother, hid, hused⟩
    have hids : (s'.nonces.map (·.id)).Nodup := by
      rw [hkeyed.nonces]
      exact List.nodup_range
    cases List.inj_on_of_nodup_map hids hother hmem hid
    simp [AuthStore.isPending, hused] at hpending
  · split at hc
    · rename_i hunused
      cases hc
      obtain ⟨hfound, rfl⟩ := h
      rintro ⟨other, hother, hhash, hused⟩
      cases List.inj_on_of_nodup_map hkeyed.refreshHashes hother
        (List.mem_of_find?_eq_some hfound.symm) hhash
      exact absurd (hunused.2.symm.trans hused) (by decide)
    · cases hc
  · split at hc
    · rename_i hunused
      cases hc
      obtain ⟨hfound, rfl⟩ := h
      rintro ⟨other, hother, hhash, hused⟩
      cases List.inj_on_of_nodup_map hkeyed.confirmationHashes hother
        (List.mem_of_find?_eq_some hfound.symm) hhash
      exact absurd (hunused.symm.trans hused) (by decide)
    · cases hc
  · cases hc

/-! ## Calls that hold credentials -/

namespace Place

/-- The call has found the credential unused, and has not used it up. -/
def finds (g : Place) (c : Credential) : Prop := g.found.map (·.1) = some c

/-- The call has found the credential unused, or has used it up. -/
def has (g : Place) (c : Credential) : Prop := g.finds c ∨ g.spent = some c

instance (g : Place) (c : Credential) : Decidable (g.finds c) :=
  inferInstanceAs (Decidable (_ = _))

theorem not_has_first (call : AuthCall) (c : Credential) : ¬ (first call).has c := by
  rintro (h | h)
  · cases h
  · cases h

/-- What an answer that hands out a credential leaves. -/
theorem after_of_unused (g : Place) {q : AuthRequest} {a : AuthAnswer q} {c : Credential × ℕ}
    (h : unusedOf q a = some c) : g.after q a = { g with found := some c } := by
  unfold unusedOf at h
  split at h
  · cases h
    rfl
  · split at h
    · rename_i hunused
      cases h
      rw [after_findRefreshToken, if_pos hunused]
    · cases h
  · split at h
    · rename_i hunused
      cases h
      rw [after_findConfirmation, if_pos hunused]
    · cases h
  · cases h

/-- The other answers leave what the call has found, except those to its marks. -/
theorem after_keeps (g : Place) {q : AuthRequest} {a : AuthAnswer q}
    (hunused : unusedOf q a = none) (hmarks : marks q = false) :
    (g.after q a).found = g.found ∧ (g.after q a).spent = g.spent := by
  cases q with
  | findNonce walletAddress now =>
    cases a with
    | none => exact ⟨rfl, rfl⟩
    | some nonce => cases hunused
  | findRefreshToken tokenHash =>
    cases a with
    | none => exact ⟨rfl, rfl⟩
    | some row =>
      rw [unusedOf_findRefreshToken] at hunused
      rw [after_findRefreshToken]
      split_ifs at hunused ⊢
      exact ⟨rfl, rfl⟩
  | findConfirmation tokenHash =>
    cases a with
    | none => exact ⟨rfl, rfl⟩
    | some record =>
      rw [unusedOf_findConfirmation] at hunused
      rw [after_findConfirmation]
      split_ifs at hunused ⊢
      exact ⟨rfl, rfl⟩
  | get jti =>
    cases a with
    | none => exact ⟨rfl, rfl⟩
    | some walletAddress => exact ⟨rfl, rfl⟩
  | useNonce id => cases hmarks
  | useRefreshToken id => cases hmarks
  | useConfirmation id => cases hmarks
  | _ => exact ⟨rfl, rfl⟩

/-- A call marks the credential that it has found. -/
theorem marks_found {lib : Libraries} {env : Environment} {g : Place} {q : AuthRequest}
    {a : AuthAnswer q} (hallowed : g.allows lib env q) (hmarks : marks q = true)
    (hstored : ∀ c id, g.found = some (c, id) → s.Stores c id) (hserves : authServer.serves i q s a s') :
    ∃ c, g.finds c ∧ s'.Spent c ∧ g.after q a = { g with found := none, spent := some c } := by
  cases q with
  | useNonce id =>
    obtain ⟨-, nonce, hnonce, hid⟩ := hstored _ _ hallowed
    cases hserves
    refine ⟨.nonce id, congrArg (Option.map Prod.fst) hallowed, ?_, ?_⟩
    · refine ⟨_, List.mem_map_of_mem hnonce, ?_⟩
      rw [if_pos (decide_eq_true hid)]
      exact ⟨hid, rfl⟩
    · show ({ g with found := none, spent := g.found.map (·.1) } : Place) = _
      rw [hallowed]
      rfl
  | useRefreshToken id =>
    obtain ⟨tokenHash, hfound⟩ := hallowed
    obtain ⟨row, hrow, hhash, hid⟩ := hstored _ _ hfound
    cases hserves
    refine ⟨.refresh tokenHash, congrArg (Option.map Prod.fst) hfound, ?_, ?_⟩
    · refine ⟨_, List.mem_map_of_mem hrow, ?_⟩
      rw [if_pos (decide_eq_true hid)]
      exact ⟨hhash, rfl⟩
    · show ({ g with found := none, spent := g.found.map (·.1) } : Place) = _
      rw [hfound]
      rfl
  | useConfirmation id =>
    obtain ⟨tokenHash, hfound⟩ := hallowed
    obtain ⟨record, hrecord, hhash, hid⟩ := hstored _ _ hfound
    cases hserves
    refine ⟨.confirmation tokenHash, congrArg (Option.map Prod.fst) hfound, ?_, ?_⟩
    · refine ⟨_, List.mem_map_of_mem hrecord, ?_⟩
      rw [if_pos (decide_eq_true hid)]
      exact ⟨hhash, rfl⟩
    · show ({ g with found := none, spent := g.found.map (·.1) } : Place) = _
      rw [hfound]
      rfl
  | _ => cases hmarks

end Place

/-! ## The invariant -/

/-- No two calls hold the same credential, those that are used up are marked, and those
    that have been found are stored. -/
structure OneTime (s : AuthStore) (gs : ℕ → Option Place) : Prop where
  keyed : s.Keyed
  holders : Exclusive Place.has (fun _ => False) gs
  spent : ∀ {i g c}, gs i = some g → g.spent = some c → s.Spent c
  found : ∀ {i g c id}, gs i = some g → g.found = some (c, id) → s.Stores c id

namespace OneTime

variable {gs : ℕ → Option Place} {o : Option Place} {g g' : Place}

theorem empty : OneTime .empty fun _ => none where
  keyed := AuthStore.empty_keyed
  holders := .nobody
  spent h := nomatch h
  found h := nomatch h

/-- One call moves. -/
theorem update (h : OneTime s gs) (hs : s.Grows s')
    (hholders : Exclusive Place.has (fun _ => False) (Function.update gs i o))
    (hspent : ∀ g ∈ o, ∀ c, g.spent = some c → s'.Spent c)
    (hfound : ∀ g ∈ o, ∀ c id, g.found = some (c, id) → s'.Stores c id) :
    OneTime s' (Function.update gs i o) where
  keyed := hs.keyed h.keyed
  holders := hholders
  spent := by
    intro j g c hj hc
    by_cases hji : j = i
    · subst hji
      rw [Function.update_self] at hj
      exact hspent g hj c hc
    · rw [Function.update_of_ne hji] at hj
      exact hs.spent c (h.spent hj hc)
  found := by
    intro j g c id hj hc
    by_cases hji : j = i
    · subst hji
      rw [Function.update_self] at hj
      exact hfound g hj c id hc
    · rw [Function.update_of_ne hji] at hj
      exact hs.stores c id (h.found hj hc)

/-- A call that holds nothing, any more. -/
theorem nothing (h : OneTime s gs) (hs : s.Grows s')
    (ho : ∀ g ∈ o, g.found = none ∧ g.spent = none) : OneTime s' (Function.update gs i o) := by
  refine h.update hs (h.holders.shrink ?_) ?_ ?_
  · rintro g hg c (hc | hc)
    · unfold Place.finds at hc
      rw [(ho g hg).1] at hc
      cases hc
    · rw [(ho g hg).2] at hc
      cases hc
  · intro g hg c hc
    rw [(ho g hg).2] at hc
    cases hc
  · intro g hg c id hc
    rw [(ho g hg).1] at hc
    cases hc

/-- A call that holds what it held. -/
theorem keep (h : OneTime s gs) (hs : s.Grows s') (hi : gs i = some g)
    (hfound : g'.found = g.found) (hspent : g'.spent = g.spent) :
    OneTime s' (Function.update gs i (some g')) := by
  refine h.update hs (h.holders.shrink ?_) ?_ ?_
  · rintro _ ⟨⟩ c hc
    rw [held_of_eq hi]
    unfold Place.has Place.finds at hc ⊢
    rw [hfound, hspent] at hc
    exact hc
  · rintro _ ⟨⟩ c hc
    exact hs.spent c (h.spent hi (hspent ▸ hc))
  · rintro _ ⟨⟩ c id hc
    exact hs.stores c id (h.found hi (hfound ▸ hc))

/-- A call finds a credential that no other call has found. -/
theorem find (h : OneTime s gs) (hi : gs i = some g) {c : Credential} {id : ℕ}
    (hstored : s.Stores c id) (hfree : ¬ s.Spent c)
    (hothers : ∀ j, j ≠ i → ¬ Held Place.finds gs j c) :
    OneTime s (Function.update gs i (some { g with found := some (c, id) })) := by
  refine h.update (.refl s) (h.holders.acquire (b := c) ?_ (fun h => h) ?_) ?_ ?_
  · rintro _ ⟨⟩ c' (hc' | hc')
    · exact .inr (Option.some.inj hc').symm
    · exact .inl ((held_of_eq hi).mpr (.inr hc'))
  · rintro j hji ⟨g', hj, hfinds | hspent⟩
    · exact hothers j hji ⟨g', hj, hfinds⟩
    · exact hfree (h.spent hj hspent)
  · rintro _ ⟨⟩ c' hc'
    exact h.spent hi hc'
  · rintro _ ⟨⟩ c' id' hc'
    cases hc'
    exact hstored

/-- A call marks the credential that it has found. -/
theorem mark (h : OneTime s gs) (hs : s.Grows s') (hi : gs i = some g) {c : Credential}
    (hfinds : g.finds c) (hmarked : s'.Spent c) :
    OneTime s' (Function.update gs i (some { g with found := none, spent := some c })) := by
  refine h.update hs (h.holders.shrink ?_) ?_ ?_
  · rintro _ ⟨⟩ c' (hc' | hc')
    · cases hc'
    · cases hc'
      exact (held_of_eq hi).mpr (.inl hfinds)
  · rintro _ ⟨⟩ c' hc'
    cases hc'
    exact hmarked
  · rintro _ ⟨⟩ c' id' hc'
    cases hc'

end OneTime

/-! ## Runs -/

variable (lib : Libraries) (env : Environment)

/-- A call finds a credential unused only while no other call has found it, and not used
    it up. -/
def Unshared (tr : List (AuthSystem × AuthEvent)) (t : AuthSystem) : AuthEvent → Prop
  | .reply i (.served q a) => ∀ c ∈ unusedOf q a, ∀ j ∈ started tr, j ≠ i →
      ¬ Held Place.finds (stands lib env tr t) j c.1
  | _ => True

instance (tr : List (AuthSystem × AuthEvent)) (t : AuthSystem) :
    (ev : AuthEvent) → Decidable (Unshared lib env tr t ev)
  | .reply i (.served q a) => inferInstanceAs (Decidable (∀ c ∈ unusedOf q a, ∀ j ∈ started tr,
      j ≠ i → ¬ Held Place.finds (stands lib env tr t) j c.1))
  | .reply _ (.lost _ _ _) => isTrue trivial
  | .reply _ (.refused _ _) => isTrue trivial
  | .start _ _ => isTrue trivial
  | .moved _ => isTrue trivial

/-- The credential that authorises a call: the nonce that a login has marked as used, or
    the token that is presented. -/
def authorisedBy (tr : List (AuthSystem × AuthEvent)) (i : ℕ) : Option Credential :=
  match inputOf i tr with
  | some (.verifySignatureAndLogin _ _) =>
    (placeOf (knowing lib env) Place.first i tr).bind (·.spent)
  | some (.refreshTokens refreshToken) => some (.refresh (lib.hashToken refreshToken))
  | some (.verifyAndConsumeToken rawToken _ _ _) => some (.confirmation (lib.hashToken rawToken))
  | _ => none

/-- Each credential has authorised at most one call that has succeeded. -/
def UsedOnce (tr : List (AuthSystem × AuthEvent)) (t : AuthSystem) : Prop :=
  ∀ i j c result result', authorisedBy lib env tr i = some c → authorisedBy lib env tr j = some c →
    t.running i = some (.done (.ok result)) → t.running j = some (.done (.ok result')) → i = j

/-- What a fulfilled request leaves. -/
theorem OneTime.ok {tr : List (AuthSystem × AuthEvent)} {t : AuthSystem}
    (h : OneTime t.shared (stands lib env tr t)) {g : Place} {q : AuthRequest} {a : AuthAnswer q}
    (hunshared : Unshared lib env tr t (.reply i (.served q a)))
    (hi : stands lib env tr t i = some g) (hallowed : g.allows lib env q)
    (hserves : authServer.serves i q t.shared a s') :
    OneTime s' (Function.update (stands lib env tr t) i (some (g.after q a))) := by
  have hs : t.shared.Grows s' := AuthStore.grows_of_serves hserves
  cases hc : unusedOf q a with
  | some c =>
    have hfree := h.keyed.not_spent hserves hc
    obtain ⟨rfl, hstored⟩ := AuthStore.stores_of_unused hserves hc
    rw [Place.after_of_unused g hc]
    refine h.find hi hstored hfree fun j hji hj => ?_
    have hstarted : ∃ g, stands lib env tr t j = some g := hj.imp fun _ => And.left
    obtain ⟨g', hg'⟩ := hstarted
    exact hunshared c hc j (mem_started (standing_eq_some hg')) hji hj
  | none =>
    cases hm : marks q with
    | true =>
      obtain ⟨c, hfinds, hmarked, hafter⟩ :=
        Place.marks_found (a := a) hallowed hm (fun c id => h.found hi) hserves
      rw [hafter]
      exact h.mark hs hi hfinds hmarked
    | false =>
      obtain ⟨hfound, hspent⟩ := g.after_keeps hc hm
      exact h.keep hs hi hfound hspent

section

variable {lib env} {tr : List (AuthSystem × AuthEvent)} {t : AuthSystem}
variable (hrun : Run (System.Step (AuthCall.program lib env) authServer) (.idle .empty) tr t)

include hrun

/-- No two calls hold the same credential as long as none is found by two calls. -/
theorem oneTime_of_run (hunshared : EachStep (Unshared lib env) tr) :
    OneTime t.shared (stands lib env tr t) := by
  refine standing_of_run (Q := Finished lib env) expected_of_serves (program_follows lib env)
    OneTime.empty ?_ ?_ ?_ ?_ hrun hunshared
  · intro s gs i h
    exact h.nothing (.refl s) (by rintro g ⟨⟩)
  · intro s gs i c h _
    exact h.nothing (.refl s) (by rintro g ⟨⟩; exact ⟨rfl, rfl⟩)
  · intro tr t i g r s' hunshared h hi hallowed hreply
    cases hreply with
    | served hserves => exact h.ok lib env hunshared hi hallowed hserves
    | lost hserves =>
      exact h.nothing (AuthStore.grows_of_serves hserves) (by rintro g ⟨⟩; exact ⟨rfl, rfl⟩)
    | refused => exact h.nothing (.refl _) (by rintro g ⟨⟩; exact ⟨rfl, rfl⟩)
  · rintro s gs ⟨milliseconds⟩ s' h rfl
    have hs : s.Grows { s with time := s.time + milliseconds } := .of_same rfl rfl rfl
    exact ⟨hs.keyed h.keyed, h.holders, fun hi hc => hs.spent _ (h.spent hi hc),
      fun hi hc => hs.stores _ _ (h.found hi hc)⟩

/-- A call that has succeeded has used its credential up. -/
theorem has_of_run {c : Credential} {result : AuthResult}
    (hc : authorisedBy lib env tr i = some c) (hi : t.running i = some (.done (.ok result))) :
    Held Place.has (stands lib env tr t) i c := by
  obtain ⟨g, hinput, hg, hstands, hreturns⟩ := returns_of_run hrun hi
  refine ⟨g, hstands, .inr ?_⟩
  unfold authorisedBy at hc
  unfold Place.Returns at hreturns
  rw [hinput, hg] at hc
  split at hc
  · exact hc
  · rename_i hcall
    rw [Option.some.inj hcall] at hreturns
    obtain ⟨payload, pair, -, hspent, -⟩ := hreturns
    exact hspent.trans hc
  · rename_i hcall
    rw [Option.some.inj hcall] at hreturns
    exact hreturns.2.trans hc
  · cases hc

end

/-- Credentials are used once in every run in which no two calls find the same one. -/
theorem credentials_used_once {tr : List (AuthSystem × AuthEvent)} {t : AuthSystem}
    (hrun : Run (System.Step (AuthCall.program lib env) authServer) (.idle .empty) tr t)
    (hunshared : EachStep (Unshared lib env) tr) : AlongRun (UsedOnce lib env) tr t := by
  refine hrun.alongRun_of_each ?_ hunshared
  intro tr t hrun hunshared i j c result result' hi hj hri hrj
  have honce := (oneTime_of_run hrun hunshared).holders
  exact honce.once (has_of_run hrun hi hri) (has_of_run hrun hj hrj)

/-! ## Two calls side by side -/

/-- Two logins, two refreshes and two confirmations, each pair with one credential and
    side by side. -/
def pairsSideBySide : AuthScript :=
  .start 2 (.requestNonce sampleWallet) :: serveNext 2 0 5 ++
    [.start 0 sampleLogin, .start 1 sampleLogin] ++ serveNext 0 0 2 ++ serveNext 1 0 2 ++
    serveNext 0 2 14 ++ serveNext 1 2 14 ++
    [.start 3 (.refreshTokens sampleTokens.refreshToken),
      .start 4 (.refreshTokens sampleTokens.refreshToken)] ++
    serveNext 3 0 3 ++ serveNext 4 0 3 ++ serveNext 3 3 14 ++ serveNext 4 3 13 ++
    .start 5 (.requestToken "admin" "archive" "pool") :: serveNext 5 0 3 ++
    [.start 6 (.verifyAndConsumeToken "5-0" "archive" "pool" "admin"),
      .start 7 (.verifyAndConsumeToken "5-0" "archive" "pool" "admin")] ++
    serveNext 6 0 2 ++ serveNext 7 0 2 ++ serveNext 6 2 1 ++ serveNext 7 2 1

/-- Both calls succeed with the same credential. -/
def bothSucceed (tr : List (AuthSystem × AuthEvent)) (t : AuthSystem) (i j : ℕ) : Prop :=
  t.returned i = true ∧ t.returned j = true ∧
    (authorisedBy sampleLibraries sampleEnvironment tr i).isSome ∧
    authorisedBy sampleLibraries sampleEnvironment tr i =
      authorisedBy sampleLibraries sampleEnvironment tr j

instance (tr : List (AuthSystem × AuthEvent)) (t : AuthSystem) (i j : ℕ) :
    Decidable (bothSucceed tr t i j) := inferInstanceAs (Decidable (_ ∧ _ ∧ _ ∧ _))

/-- Two logins with a nonce succeed, two refreshes with a token, and two confirmations. -/
theorem not_credentials_used_once : ∃ tr t,
    Run (System.Step (AuthCall.program sampleLibraries sampleEnvironment) authServer)
      (.idle .empty) tr t ∧
      (bothSucceed tr t 0 1 ∧ bothSucceed tr t 3 4 ∧ bothSucceed tr t 6 7) ∧
      ¬ UsedOnce sampleLibraries sampleEnvironment tr t := by
  obtain ⟨tr, t, hrun, hboth⟩ : ∃ tr t,
      Run (System.Step (AuthCall.program sampleLibraries sampleEnvironment) authServer)
        (.idle .empty) tr t ∧
        (bothSucceed tr t 0 1 ∧ bothSucceed tr t 3 4 ∧ bothSucceed tr t 6 7) := by
    have hreplay : ∃ r ∈ replay (workingAuth.perform
        (AuthCall.program sampleLibraries sampleEnvironment)) pairsSideBySide [] (.idle .empty),
        bothSucceed r.1 r.2 0 1 ∧ bothSucceed r.1 r.2 3 4 ∧ bothSucceed r.1 r.2 6 7 := by
      decide +kernel
    exact exists_run_of_replay workingAuth.perform_step hreplay
  refine ⟨tr, t, hrun, hboth, fun h => ?_⟩
  obtain ⟨⟨h0, h1, hsome, hsame⟩, -⟩ := hboth
  obtain ⟨c, hc⟩ := Option.isSome_iff_exists.mp hsome
  obtain ⟨result, hresult⟩ := System.exists_of_returned h0
  obtain ⟨result', hresult'⟩ := System.exists_of_returned h1
  exact absurd (h 0 1 c result result' hc (hsame ▸ hc) hresult hresult') (by decide)

/-- A login, a refresh and a confirmation, and then the token and the confirmation once
    more. -/
theorem credentials_used_once_sample : ∃ tr t,
    Run (System.Step (AuthCall.program sampleLibraries sampleEnvironment) authServer)
      (.idle .empty) tr t ∧
      [0, 3, 4, 6, 7].map t.returned = [true, true, false, true, false] ∧
      AlongRun (UsedOnce sampleLibraries sampleEnvironment) tr t := by
  obtain ⟨tr, t, hrun, hreturned, hunshared⟩ : ∃ tr t,
      Run (System.Step (AuthCall.program sampleLibraries sampleEnvironment) authServer)
        (.idle .empty) tr t ∧
        [0, 3, 4, 6, 7].map t.returned = [true, true, false, true, false] ∧
        EachStep (Unshared sampleLibraries sampleEnvironment) tr := by
    have hreplay : ∃ r ∈ replay (workingAuth.perform
        (AuthCall.program sampleLibraries sampleEnvironment))
        (.start 2 (.requestNonce sampleWallet) :: serveNext 2 0 5 ++
          .start 0 sampleLogin :: serveNext 0 0 16 ++
          .start 3 (.refreshTokens sampleTokens.refreshToken) :: serveNext 3 0 17 ++
          .start 4 (.refreshTokens sampleTokens.refreshToken) :: serveNext 4 0 2 ++
          .start 5 (.requestToken "admin" "archive" "pool") :: serveNext 5 0 3 ++
          .start 6 (.verifyAndConsumeToken "5-0" "archive" "pool" "admin") :: serveNext 6 0 3 ++
          .start 7 (.verifyAndConsumeToken "5-0" "archive" "pool" "admin") :: serveNext 7 0 2)
        [] (.idle .empty),
        [0, 3, 4, 6, 7].map r.2.returned = [true, true, false, true, false] ∧
          EachStep (Unshared sampleLibraries sampleEnvironment) r.1 := by
      decide +kernel
    exact exists_run_of_replay workingAuth.perform_step hreplay
  exact ⟨tr, t, hrun, hreturned,
    credentials_used_once sampleLibraries sampleEnvironment hrun hunshared⟩

end InverseArena.Backend.Auth
