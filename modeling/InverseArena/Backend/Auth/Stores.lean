import InverseArena.Backend.Auth.Service
import InverseArena.Library.Sequential

/-!
# MongoDB and Redis, as the authentication service uses them

Each request is atomic; of a pipeline any commands may be refused. Documents stay when
they have expired: what the TTL indexes remove, the services refuse anyway. Random numbers
are not drawn twice.

Results:
* `workAuth_serves`: working stores answer what the stores may answer.
-/

namespace InverseArena.Backend.Auth

open Async

/-- The collections, the keys of Redis, the clock, and the random numbers that have been
    drawn. -/
structure AuthStore where
  nonces : List NonceDocument
  users : List UserDocument
  refreshTokens : List RefreshTokenDocument
  confirmations : List ConfirmationTokenDocument
  /-- `auth:jti:{jti}`: the wallet and when the key expires. -/
  jtiKeys : String → Option (String × ℕ)
  /-- `auth:wallet:{addr}`. -/
  walletSets : String → List String
  time : ℕ
  drawn : List String

namespace AuthStore

/-- The value of the key of the jti, while it has not expired. -/
def session (s : AuthStore) (jti : String) : Option String :=
  match s.jtiKeys jti with
  | some (walletAddress, expiresAt) => if s.time < expiresAt then some walletAddress else none
  | none => none

/-- An active session has a key. -/
theorem key_of_session {s : AuthStore} {jti walletAddress : String}
    (h : s.session jti = some walletAddress) : s.jtiKeys jti ≠ none := by
  intro hnone
  unfold session at h
  rw [hnone] at h
  cases h

/-- The nonces that `requestNonce` and `verifySignatureAndLogin` look for. -/
def isPending (walletAddress : String) (now : ℕ) (nonce : NonceDocument) : Bool :=
  nonce.walletAddress = walletAddress && !nonce.used && now < nonce.expiresAt

/-- The newest pending nonce of the wallet; among those of the same age, any. -/
def FindsNonce (s : AuthStore) (walletAddress : String) (now : ℕ) : Option NonceDocument → Prop
  | none => ∀ nonce ∈ s.nonces, isPending walletAddress now nonce = false
  | some nonce => nonce ∈ s.nonces ∧ isPending walletAddress now nonce = true ∧
    ∀ other ∈ s.nonces, isPending walletAddress now other = true →
      other.createdAt ≤ nonce.createdAt

/-- Marks the nonces that satisfy `p` as used. -/
def useNonces (s : AuthStore) (p : NonceDocument → Bool) : AuthStore :=
  { s with nonces := s.nonces.map (fun nonce =>
      if p nonce then { nonce with used := true } else nonce) }

/-- Marks the confirmation tokens that satisfy `p` as used. -/
def useConfirmations (s : AuthStore) (p : ConfirmationTokenDocument → Bool) : AuthStore :=
  { s with confirmations := s.confirmations.map (fun record =>
      if p record then { record with used := true } else record) }

/-- The user takes the place of the one with the same wallet. -/
def putUser (s : AuthStore) (user : UserDocument) : AuthStore :=
  { s with users := s.users.map (fun row =>
      if row.walletAddress = user.walletAddress then user else row) }

/-- Changes the refresh tokens that satisfy `p`. -/
def mapRefreshTokens (s : AuthStore) (p : RefreshTokenDocument → Bool)
    (f : RefreshTokenDocument → RefreshTokenDocument) : AuthStore :=
  { s with refreshTokens := s.refreshTokens.map (fun row => if p row then f row else row) }

def useRefreshToken (s : AuthStore) (id : ℕ) : AuthStore :=
  s.mapRefreshTokens (fun row => row.id = id) fun row => { row with used := true }

/-- Revokes the refresh tokens that satisfy `p`. -/
def revoke (s : AuthStore) (p : RefreshTokenDocument → Bool) : AuthStore :=
  s.mapRefreshTokens p fun row => { row with revoked := true }

/-- `SET key value EX ttl`. -/
def setSession (s : AuthStore) (jti walletAddress : String) (ttl : ℕ) : AuthStore :=
  { s with jtiKeys :=
      Function.update s.jtiKeys jti (some (walletAddress, s.time + ttl * 1000)) }

/-- `DEL` of the keys of some jtis. -/
def delSessions (s : AuthStore) (jtis : List String) : AuthStore :=
  { s with jtiKeys := fun jti => if jti ∈ jtis then none else s.jtiKeys jti }

/-- Sets the members of the wallet's set. -/
def setWallet (s : AuthStore) (walletAddress : String) (jtis : List String) : AuthStore :=
  { s with walletSets := Function.update s.walletSets walletAddress jtis }

/-- What the executed commands of a pipeline of deletions do. -/
def execute (s : AuthStore) (walletAddress : String) (executed : Executed) : AuthStore :=
  { s.delSessions executed.jtis with
    walletSets :=
      if executed.wallet then Function.update s.walletSets walletAddress [] else s.walletSets }

@[simp] theorem execute_jtiKeys (s : AuthStore) (walletAddress : String) (executed : Executed) :
    (s.execute walletAddress executed).jtiKeys = (s.delSessions executed.jtis).jtiKeys := rfl

theorem execute_of_wallet (s : AuthStore) (walletAddress : String) {executed : Executed}
    (h : executed.wallet = true) : s.execute walletAddress executed =
      (s.delSessions executed.jtis).setWallet walletAddress [] := by
  unfold execute
  rw [if_pos h]
  rfl

theorem execute_of_not_wallet (s : AuthStore) (walletAddress : String) {executed : Executed}
    (h : executed.wallet ≠ true) :
    s.execute walletAddress executed = s.delSessions executed.jtis := by
  unfold execute
  rw [if_neg h]
  rfl

@[simp] theorem setWallet_self (s : AuthStore) (walletAddress : String) (jtis : List String) :
    (s.setWallet walletAddress jtis).walletSets walletAddress = jtis := Function.update_self ..

theorem setWallet_of_ne (s : AuthStore) {walletAddress wallet : String} (jtis : List String)
    (h : wallet ≠ walletAddress) :
    (s.setWallet walletAddress jtis).walletSets wallet = s.walletSets wallet :=
  Function.update_of_ne h ..

theorem setSession_of_ne (s : AuthStore) {jti jti' : String} (walletAddress : String) (ttl : ℕ)
    (h : jti' ≠ jti) : (s.setSession jti walletAddress ttl).jtiKeys jti' = s.jtiKeys jti' :=
  Function.update_of_ne h ..

theorem delSessions_ne_none {s : AuthStore} {jtis : List String} {jti : String} :
    (s.delSessions jtis).jtiKeys jti ≠ none ↔ jti ∉ jtis ∧ s.jtiKeys jti ≠ none := by
  show (if jti ∈ jtis then none else s.jtiKeys jti) ≠ none ↔ _
  split_ifs with hmem
  · simp [hmem]
  · simp [hmem]

end AuthStore

/-- The user that a login finds or creates. -/
def Upserts (s : AuthStore) (walletAddress : String) (now : ℕ) (user : UserDocument)
    (s' : AuthStore) : Prop :=
  match s.users.find? fun user => user.walletAddress = walletAddress with
  | some found => user = { found with lastLoginAt := now } ∧ s' = s.putUser user
  | none => user.walletAddress = walletAddress ∧ user.joinedAt = now ∧ user.lastLoginAt = now ∧
    (∀ row ∈ s.users, row.id ≠ user.id) ∧ s' = { s with users := s.users ++ [user] }

/-- What serving a request does. -/
def servesAuth (_ : ℕ) : (q : AuthRequest) → AuthStore → AuthAnswer q → AuthStore → Prop
  | .now, s, time, s' => time = s.time ∧ s' = s
  | .random, s, a, s' => a ≠ "" ∧ a ∉ s.drawn ∧ s' = { s with drawn := a :: s.drawn }
  | .retireNonces walletAddress now, s, _, s' =>
    s' = s.useNonces (AuthStore.isPending walletAddress now)
  | .createNonce walletAddress nonce expiresAt, s, _, s' =>
    s' = { s with nonces :=
      s.nonces ++ [⟨s.nonces.length, walletAddress, nonce, false, expiresAt, s.time⟩] }
  | .findNonce walletAddress now, s, a, s' => s.FindsNonce walletAddress now a ∧ s' = s
  | .useNonce id, s, _, s' => s' = s.useNonces fun nonce => nonce.id = id
  | .upsertUser walletAddress now, s, user, s' => Upserts s walletAddress now user s'
  | .createRefreshToken tokenHash familyId userId expiresAt, s, _, s' =>
    (∀ row ∈ s.refreshTokens, row.tokenHash ≠ tokenHash) ∧
      s' = { s with refreshTokens := s.refreshTokens ++
        [⟨s.refreshTokens.length, tokenHash, familyId, userId, false, false, expiresAt⟩] }
  | .findRefreshToken tokenHash, s, a, s' =>
    a = (s.refreshTokens.find? fun row => row.tokenHash = tokenHash) ∧ s' = s
  | .useRefreshToken id, s, _, s' => s' = s.useRefreshToken id
  | .revokeFamily familyId, s, _, s' => s' = s.revoke fun row => row.familyId = familyId
  | .revokeUser userId, s, _, s' => s' = s.revoke fun row => row.userId = userId && !row.revoked
  | .createConfirmation adminId tokenHash action resourceId expiresAt, s, _, s' =>
    (∀ row ∈ s.confirmations, row.tokenHash ≠ tokenHash) ∧
      s' = { s with confirmations := s.confirmations ++
        [⟨s.confirmations.length, adminId, tokenHash, action, resourceId, false, expiresAt⟩] }
  | .findConfirmation tokenHash, s, a, s' =>
    a = (s.confirmations.find? fun row => row.tokenHash = tokenHash) ∧ s' = s
  | .useConfirmation id, s, _, s' => s' = s.useConfirmations fun record => record.id = id
  | .get jti, s, a, s' => a = s.session jti ∧ s' = s
  | .set jti walletAddress ttl, s, _, s' => s' = s.setSession jti walletAddress ttl
  | .sadd walletAddress jti, s, _, s' =>
    s' = s.setWallet walletAddress (s.walletSets walletAddress ∪ [jti])
  | .del jti, s, _, s' => s' = s.delSessions [jti]
  | .srem walletAddress jti, s, _, s' =>
    s' = s.setWallet walletAddress ((s.walletSets walletAddress).filter (· ≠ jti))
  | .smembers walletAddress, s, a, s' => a.Perm (s.walletSets walletAddress) ∧ s' = s
  | .delWallet walletAddress, s, _, s' => s' = s.setWallet walletAddress []
  | .execDeletes jtis walletAddress, s, executed, s' =>
    executed.jtis ⊆ jtis ∧ s' = s.execute walletAddress executed

/-- What happens besides: time passes. -/
inductive AuthMove where
  | passed (milliseconds : ℕ)
  deriving DecidableEq

/-- MongoDB and Redis. -/
def authServer : Server AuthAnswer AuthStore AuthMove where
  serves := servesAuth
  moves
    | .passed milliseconds, s, s' => s' = { s with time := s.time + milliseconds }

namespace AuthStore

/-- Nothing is stored. -/
def empty : AuthStore := ⟨[], [], [], [], fun _ => none, fun _ => [], 0, []⟩

instance (s : AuthStore) (walletAddress : String) (now : ℕ) :
    (a : Option NonceDocument) → Decidable (s.FindsNonce walletAddress now a)
  | none => inferInstanceAs (Decidable (∀ nonce ∈ s.nonces, _ = _))
  | some nonce => inferInstanceAs (Decidable (nonce ∈ s.nonces ∧ _ = _ ∧ ∀ other ∈ s.nonces, _))

end AuthStore

/-! ## Working stores -/

/-- `upsertUser` with the id of the user that may have to be created. -/
def workUpsert (id : String) (s : AuthStore) (walletAddress : String) (now : ℕ) :
    Option (UserDocument × AuthStore) :=
  match s.users.find? fun user => user.walletAddress = walletAddress with
  | some found =>
    let user := { found with lastLoginAt := now }
    some (user, s.putUser user)
  | none =>
    let user := ⟨id, walletAddress, now, now⟩
    if ∀ row ∈ s.users, row.id ≠ id then some (user, { s with users := s.users ++ [user] })
    else none

/-- Stores that serve the requests; the hint is the number to draw or the id to give. -/
def workAuth (hint : String) (q : AuthRequest) (s : AuthStore) : Option (AuthAnswer q × AuthStore) :=
  match q with
  | .now => some (s.time, s)
  | .random =>
    if hint ≠ "" ∧ hint ∉ s.drawn then some (hint, { s with drawn := hint :: s.drawn }) else none
  | .retireNonces walletAddress now =>
    some ((), s.useNonces (AuthStore.isPending walletAddress now))
  | .createNonce walletAddress nonce expiresAt =>
    some ((), { s with nonces :=
      s.nonces ++ [⟨s.nonces.length, walletAddress, nonce, false, expiresAt, s.time⟩] })
  | .findNonce walletAddress now =>
    let found := (s.nonces.filter (AuthStore.isPending walletAddress now)).getLast?
    if s.FindsNonce walletAddress now found then some (found, s) else none
  | .useNonce id => some ((), s.useNonces fun nonce => nonce.id = id)
  | .upsertUser walletAddress now => workUpsert hint s walletAddress now
  | .createRefreshToken tokenHash familyId userId expiresAt =>
    if ∀ row ∈ s.refreshTokens, row.tokenHash ≠ tokenHash then
      some ((), { s with refreshTokens := s.refreshTokens ++
        [⟨s.refreshTokens.length, tokenHash, familyId, userId, false, false, expiresAt⟩] })
    else none
  | .findRefreshToken tokenHash =>
    some (s.refreshTokens.find? fun row => row.tokenHash = tokenHash, s)
  | .useRefreshToken id => some ((), s.useRefreshToken id)
  | .revokeFamily familyId => some ((), s.revoke fun row => row.familyId = familyId)
  | .revokeUser userId => some ((), s.revoke fun row => row.userId = userId && !row.revoked)
  | .createConfirmation adminId tokenHash action resourceId expiresAt =>
    if ∀ row ∈ s.confirmations, row.tokenHash ≠ tokenHash then
      some ((), { s with confirmations := s.confirmations ++
        [⟨s.confirmations.length, adminId, tokenHash, action, resourceId, false, expiresAt⟩] })
    else none
  | .findConfirmation tokenHash =>
    some (s.confirmations.find? fun row => row.tokenHash = tokenHash, s)
  | .useConfirmation id => some ((), s.useConfirmations fun record => record.id = id)
  | .get jti => some (s.session jti, s)
  | .set jti walletAddress ttl => some ((), s.setSession jti walletAddress ttl)
  | .sadd walletAddress jti =>
    some ((), s.setWallet walletAddress (s.walletSets walletAddress ∪ [jti]))
  | .del jti => some ((), s.delSessions [jti])
  | .srem walletAddress jti =>
    some ((), s.setWallet walletAddress ((s.walletSets walletAddress).filter (· ≠ jti)))
  | .smembers walletAddress => some (s.walletSets walletAddress, s)
  | .delWallet walletAddress => some ((), s.setWallet walletAddress [])
  | .execDeletes jtis walletAddress =>
    some (⟨jtis, true⟩, s.execute walletAddress ⟨jtis, true⟩)

variable {hint : String} {s s' : AuthStore}

theorem workUpsert_upserts {walletAddress : String} {now : ℕ} {user : UserDocument}
    (h : workUpsert hint s walletAddress now = some (user, s')) :
    Upserts s walletAddress now user s' := by
  unfold workUpsert at h
  unfold Upserts
  split at h
  · cases h
    exact ⟨rfl, rfl⟩
  · split at h
    · rename_i hnew
      cases h
      exact ⟨rfl, rfl, rfl, hnew, rfl⟩
    · cases h

/-- Working stores answer what the stores may answer. -/
theorem workAuth_serves {i : ℕ} {q : AuthRequest} {a : AuthAnswer q}
    (h : workAuth hint q s = some (a, s')) : authServer.serves i q s a s' := by
  cases q with
  | upsertUser walletAddress now => exact workUpsert_upserts h
  | random =>
    simp only [workAuth] at h
    split at h
    · rename_i hfresh
      cases h
      exact ⟨hfresh.1, hfresh.2, rfl⟩
    · cases h
  | findNonce walletAddress now =>
    simp only [workAuth] at h
    split at h
    · rename_i hfinds
      cases h
      exact ⟨hfinds, rfl⟩
    · cases h
  | createRefreshToken tokenHash familyId userId expiresAt =>
    simp only [workAuth] at h
    split at h
    · rename_i hnew
      cases h
      exact ⟨hnew, rfl⟩
    · cases h
  | createConfirmation adminId tokenHash action resourceId expiresAt =>
    simp only [workAuth] at h
    split at h
    · rename_i hnew
      cases h
      exact ⟨hnew, rfl⟩
    · cases h
  | now => cases h; exact ⟨rfl, rfl⟩
  | findRefreshToken tokenHash => cases h; exact ⟨rfl, rfl⟩
  | findConfirmation tokenHash => cases h; exact ⟨rfl, rfl⟩
  | get jti => cases h; exact ⟨rfl, rfl⟩
  | smembers walletAddress => cases h; exact ⟨.refl _, rfl⟩
  | execDeletes jtis walletAddress => cases h; exact ⟨fun _ h => h, rfl⟩
  | _ => cases h; exact rfl

/-- Stores that work, for runs on samples. -/
def workingAuth : Script authServer String where
  serve hint _ := workAuth hint
  move
    | .passed milliseconds, s => some { s with time := s.time + milliseconds }
  serve_sound := workAuth_serves
  move_sound := by
    rintro ⟨milliseconds⟩ s s' ⟨⟩
    exact rfl

end InverseArena.Backend.Auth
