import InverseArena.Backend.Auth.Stores
import InverseArena.Library.Places

/-!
# What a call to the authentication service knows

The discipline that the calls keep, whatever they are answered: a session is registered
for a number that the call has drawn, a credential is used up only after it has been
found unused, a session is not looked at any more once its key has been deleted, a
member leaves the set of a wallet only after its key has been deleted,
and the set of a wallet is deleted with the sessions that have been read from it.

Results:
* `program_follows`: each call keeps the discipline, and what a call that returns has
  done.
-/

namespace InverseArena.Backend.Auth

open Async Transition

/-- What authorises a call: a nonce by its document, the tokens by their hashes. -/
inductive Credential where
  | nonce (id : ℕ)
  | refresh (tokenHash : String)
  | confirmation (tokenHash : String)
  deriving DecidableEq, Repr

/-- What a call has done so far. -/
structure Place where
  call : AuthCall
  /-- The numbers that it has drawn and not made a session of. -/
  pending : List String
  /-- A session that is not in its wallet's set yet. -/
  half : Option (String × String)
  /-- The sessions that it has registered, with their wallets. -/
  registered : List (String × String)
  /-- The sessions that it has seen active, with their wallets. -/
  seen : List (String × String)
  /-- The sessions whose keys it has deleted. -/
  deleted : List String
  /-- The unused credential that it has found, and its document. -/
  found : Option (Credential × ℕ)
  /-- The credential that it has used up. -/
  spent : Option Credential
  /-- The wallet whose sessions it is about to delete, and these sessions. -/
  reading : Option (String × List String)
  /-- The wallet whose sessions it has deleted. -/
  cleared : Option String

/-- A call that has done nothing. -/
def Place.first (call : AuthCall) : Place := ⟨call, [], none, [], [], [], none, none, none, none⟩

variable (lib : Libraries) (env : Environment)

/-- What a call may ask for. -/
def Place.allows (g : Place) : AuthRequest → Prop
  | .get jti => jti ∉ g.deleted
  | .set jti _ _ => jti ∈ g.pending
  | .sadd walletAddress jti => g.half = some (jti, walletAddress)
  | .srem walletAddress jti => (jti, walletAddress) ∈ g.seen ∧ jti ∈ g.deleted
  | .delWallet walletAddress => g.reading = some (walletAddress, [])
  | .execDeletes jtis walletAddress => g.reading = some (walletAddress, jtis)
  | .useNonce id => g.found = some (.nonce id, id)
  | .useRefreshToken id => ∃ tokenHash, g.found = some (.refresh tokenHash, id)
  | .useConfirmation id => ∃ tokenHash, g.found = some (.confirmation tokenHash, id)
  | .createRefreshToken tokenHash _ _ _ => ∃ secret payload iat expiresIn,
      getJwtSecret env = .ok secret ∧ payload.jti ∈ g.pending ∧
      tokenHash = lib.hashToken (lib.sign payload secret iat expiresIn)
  | _ => True

/-- Where a fulfilled request leaves a call. -/
def Place.after (g : Place) : (q : AuthRequest) → AuthAnswer q → Place
  | .random, a => { g with pending := a :: g.pending }
  | .set jti walletAddress _, _ =>
    { g with pending := g.pending.erase jti, half := some (jti, walletAddress) }
  | .sadd walletAddress jti, _ =>
    { g with half := none, registered := (jti, walletAddress) :: g.registered }
  | .get jti, some walletAddress => { g with seen := (jti, walletAddress) :: g.seen }
  | .del jti, _ => { g with deleted := jti :: g.deleted }
  | .smembers walletAddress, jtis => { g with reading := some (walletAddress, jtis) }
  | .delWallet walletAddress, _ => { g with reading := none, cleared := some walletAddress }
  | .execDeletes _ walletAddress, _ => { g with reading := none, cleared := some walletAddress }
  | .findNonce _ _, some nonce => { g with found := some (.nonce nonce.id, nonce.id) }
  | .findRefreshToken _, some row =>
    if row.revoked = false ∧ row.used = false then
      { g with found := some (.refresh row.tokenHash, row.id) }
    else g
  | .findConfirmation _, some record =>
    if record.used = false then
      { g with found := some (.confirmation record.tokenHash, record.id) }
    else g
  | .useNonce _, _ => { g with found := none, spent := g.found.map (·.1) }
  | .useRefreshToken _, _ => { g with found := none, spent := g.found.map (·.1) }
  | .useConfirmation _, _ => { g with found := none, spent := g.found.map (·.1) }
  | _, _ => g

/-- Where a reply leaves a call; a rejected request ends it. -/
def Place.next (g : Place) (q : AuthRequest) : Except AuthError (AuthAnswer q) → Place
  | .ok a => g.after q a
  | .error _ => .first g.call

theorem Place.after_findRefreshToken (g : Place) (tokenHash : String)
    (row : RefreshTokenDocument) : g.after (.findRefreshToken tokenHash) (some row) =
      if row.revoked = false ∧ row.used = false then
        { g with found := some (.refresh row.tokenHash, row.id) }
      else g := rfl

theorem Place.after_findConfirmation (g : Place) (tokenHash : String)
    (record : ConfirmationTokenDocument) : g.after (.findConfirmation tokenHash) (some record) =
      if record.used = false then
        { g with found := some (.confirmation record.tokenHash, record.id) }
      else g := rfl

/-- What the stores answer. -/
def expected : (q : AuthRequest) → AuthAnswer q → Prop
  | .random, a => a ≠ ""
  | .findRefreshToken tokenHash, some row => row.tokenHash = tokenHash
  | .findConfirmation tokenHash, some record => record.tokenHash = tokenHash
  | _, _ => True

/-- A call stays the same call. -/
theorem Place.call_next (g : Place) (q : AuthRequest) (r : Except AuthError (AuthAnswer q)) :
    (g.next q r).call = g.call := by
  cases r with
  | error e => rfl
  | ok a =>
    cases q with
    | get jti => cases a <;> rfl
    | findNonce walletAddress now => cases a <;> rfl
    | findRefreshToken tokenHash =>
      cases a with
      | none => rfl
      | some row =>
        show (g.after _ _).call = g.call
        rw [Place.after_findRefreshToken]
        split <;> rfl
    | findConfirmation tokenHash =>
      cases a with
      | none => rfl
      | some record =>
        show (g.after _ _).call = g.call
        rw [Place.after_findConfirmation]
        split <;> rfl
    | _ => rfl

/-- The stores answer what the calls expect. -/
theorem expected_of_serves {i : ℕ} {q : AuthRequest} {s : AuthStore} {a : AuthAnswer q}
    {s' : AuthStore} (h : authServer.serves i q s a s') : expected q a := by
  cases q with
  | random => exact h.1
  | findRefreshToken tokenHash =>
    cases a with
    | none => trivial
    | some row =>
      have hhash : row.tokenHash = tokenHash := by simpa using List.find?_some h.1.symm
      exact hhash
  | findConfirmation tokenHash =>
    cases a with
    | none => trivial
    | some record =>
      have hhash : record.tokenHash = tokenHash := by simpa using List.find?_some h.1.symm
      exact hhash
  | _ => trivial

/-- The discipline of the calls. -/
def knowing : Protocol AuthAnswer AuthError Place where
  allowed := Place.allows lib env
  answers := expected
  next := Place.next

/-- The tokens are signed for sessions of the wallet that the call has registered. -/
def Issued (g : Place) (walletAddress : String) (pair : TokenPair) : Prop :=
  ∃ secret sub accessJti refreshJti iat iat', getJwtSecret env = .ok secret ∧
    accessJti ≠ "" ∧ refreshJti ≠ "" ∧
    pair.accessToken =
      lib.sign ⟨sub, walletAddress, .access, accessJti⟩ secret iat env.accessTtl ∧
    pair.refreshToken =
      lib.sign ⟨sub, walletAddress, .refresh, refreshJti⟩ secret iat' env.refreshTtl ∧
    (accessJti, walletAddress) ∈ g.registered ∧ (refreshJti, walletAddress) ∈ g.registered

/-- What the token says, whenever it is presented. -/
def Says (token : String) (payload : JwtPayload) : Prop :=
  ∃ secret exp, getJwtSecret env = .ok secret ∧ lib.decode token secret = some ⟨payload, exp⟩

variable {lib env} in
/-- A token says one thing. -/
theorem Says.unique {token : String} {payload payload' : JwtPayload}
    (h : Says lib env token payload) (h' : Says lib env token payload') : payload = payload' := by
  obtain ⟨secret, exp, hsecret, hdecode⟩ := h
  obtain ⟨secret', exp', hsecret', hdecode'⟩ := h'
  cases Except.ok.inj (hsecret.symm.trans hsecret')
  exact congrArg SignedPayload.payload (Option.some.inj (hdecode.symm.trans hdecode'))

/-- What a call that returns has done. -/
def Place.Returns (g : Place) (result : AuthResult) : Prop :=
  match g.call with
  | .requestNonce _ => ∃ nonce expiresAt, result = .text nonce expiresAt
  | .verifySignatureAndLogin walletAddress _ => ∃ id pair, result = .tokens pair ∧
      g.spent = some (.nonce id) ∧ Issued lib env g walletAddress pair
  | .refreshTokens refreshToken => ∃ payload pair, result = .tokens pair ∧
      g.spent = some (.refresh (lib.hashToken refreshToken)) ∧
      Says lib env refreshToken payload ∧
      (payload.jti ≠ "" → payload.jti ∈ g.deleted ∧ ∃ wallet, (payload.jti, wallet) ∈ g.seen) ∧
      Issued lib env g payload.wallet pair
  | .logout _ => result = .nothing
  | .revokeAllSessions walletAddress _ => ∃ revokedCount, result = .count revokedCount ∧
      g.cleared = some walletAddress
  | .verifyAccessToken token => ∃ payload wallet, result = .payload payload ∧
      Says lib env token payload ∧ (payload.jti, wallet) ∈ g.seen
  | .requestToken _ _ _ => ∃ token expiresAt, result = .text token expiresAt
  | .verifyAndConsumeToken rawToken _ _ _ => result = .nothing ∧
      g.spent = some (.confirmation (lib.hashToken rawToken))

/-- Tokens that are returned have been issued. -/
theorem Place.Returns.issued {lib : Libraries} {env : Environment} {g : Place} {pair : TokenPair}
    (h : g.Returns lib env (.tokens pair)) :
    ∃ walletAddress, Issued lib env g walletAddress pair := by
  unfold Place.Returns at h
  split at h
  · obtain ⟨nonce, expiresAt, ⟨⟩⟩ := h
  · obtain ⟨id, pair', ⟨⟩, -, hissued⟩ := h
    exact ⟨_, hissued⟩
  · obtain ⟨payload, pair', ⟨⟩, -, -, -, hissued⟩ := h
    exact ⟨_, hissued⟩
  · cases h
  · obtain ⟨revokedCount, ⟨⟩, -⟩ := h
  · obtain ⟨payload, wallet, ⟨⟩, -⟩ := h
  · obtain ⟨token, expiresAt, ⟨⟩⟩ := h
  · obtain ⟨⟨⟩, -⟩ := h

/-- How a call ends. -/
def Finished (g : Place) (r : Except AuthError AuthResult) : Prop :=
  ∀ result, r = .ok result → g.Returns lib env result

/-! ## Steps through a program -/

section

variable {lib env} {α β : Type} {g : Place}

/-- A request that a call goes on after; when it is rejected the call ends. -/
theorem follows_call {q : AuthRequest} {f : AuthAnswer q → AuthProgram α}
    {Q : Place → Except AuthError α → Prop} (hq : g.allows lib env q)
    (hok : ∀ a, expected q a → (f a).Follows (knowing lib env) (g.after q a) Q)
    (herr : ∀ g e, Q g (.error e)) : (call q >>= f).Follows (knowing lib env) g Q := by
  unfold call request
  rw [follows_bind]
  exact ⟨hq, fun a ha => hok a ha, fun e => herr _ e⟩

/-- A last request. -/
theorem follows_last {q : AuthRequest} {Q : Place → Except AuthError (AuthAnswer q) → Prop}
    (hq : g.allows lib env q) (hok : ∀ a, expected q a → Q (g.after q a) (.ok a))
    (herr : ∀ g e, Q g (.error e)) : (call q).Follows (knowing lib env) g Q :=
  ⟨hq, fun a ha => hok a ha, fun e => herr _ e⟩

/-- A computation that throws, or goes on with its value. -/
theorem follows_step {p : AuthProgram α} {f : α → AuthProgram β}
    {R : Place → α → Prop} {Q : Place → Except AuthError β → Prop}
    (hp : p.Follows (knowing lib env) g fun g r => ∀ a, r = .ok a → R g a)
    (hf : ∀ g a, R g a → (f a).Follows (knowing lib env) g Q)
    (herr : ∀ g e, Q g (.error e)) : (p >>= f).Follows (knowing lib env) g Q := by
  rw [follows_bind]
  refine hp.mono fun g' r h => ?_
  cases r with
  | ok a => exact hf g' a (h a rfl)
  | error e => exact herr g' e

theorem follows_guard {p : Prop} [Decidable p] {e : AuthError} {f : Unit → AuthProgram β}
    {Q : Place → Except AuthError β → Prop}
    (hf : p → (f ()).Follows (knowing lib env) g Q) (herr : ∀ g e, Q g (.error e)) :
    (check p e >>= f).Follows (knowing lib env) g Q := by
  rw [follows_bind, follows_check]
  exact ⟨hf, fun _ => herr _ _⟩

theorem follows_some {o : Option α} {e : AuthError} {f : α → AuthProgram β}
    {Q : Place → Except AuthError β → Prop}
    (hf : ∀ a, o = some a → (f a).Follows (knowing lib env) g Q) (herr : ∀ g e, Q g (.error e)) :
    (orThrow o e >>= f).Follows (knowing lib env) g Q := by
  rw [follows_bind, follows_orThrow]
  exact ⟨hf, fun _ => herr _ _⟩

theorem error_ne_ok {P : Place → α → Prop} (g : Place) (e : AuthError) :
    ∀ a, (.error e : Except AuthError α) = .ok a → P g a := nofun

/-! ## The session store -/

theorem isActive_follows {jti : String} (h : jti ∉ g.deleted) :
    (isActive jti).Follows (knowing lib env) g fun g' r => ∀ active, r = .ok active →
      active = true → ∃ wallet, g' = { g with seen := (jti, wallet) :: g.seen } := by
  refine follows_call h ?_ error_ne_ok
  rintro (_ | wallet) - active ⟨⟩ hactive
  · cases hactive
  · exact ⟨wallet, rfl⟩

theorem removeSession_follows {jti : String} (h : jti ∉ g.deleted) :
    (removeSession jti).Follows (knowing lib env) g fun g' r => ∀ u, r = .ok u →
      ∃ seen, g.seen ⊆ seen ∧ g' = { g with seen := seen, deleted := jti :: g.deleted } := by
  refine follows_call h ?_ error_ne_ok
  rintro (_ | wallet) -
  · refine follows_call trivial ?_ error_ne_ok
    rintro ⟨⟩ - u -
    exact ⟨g.seen, fun _ h => h, rfl⟩
  · refine follows_call trivial ?_ error_ne_ok
    rintro ⟨⟩ -
    have hend : ∃ seen, g.seen ⊆ seen ∧ (({ g with seen := (jti, wallet) :: g.seen }).after
        (.del jti) ()) = { g with seen := seen, deleted := jti :: g.deleted } :=
      ⟨_, List.subset_cons_self _ _, rfl⟩
    split
    · rename_i h
      cases h
    · exact fun _ _ => hend
    · rename_i hwallet
      cases hwallet
      exact follows_last ⟨List.mem_cons_self, List.mem_cons_self⟩ (fun _ _ _ _ => hend)
        error_ne_ok

theorem removeAllSessions_follows (walletAddress : String) :
    (removeAllSessions walletAddress).Follows (knowing lib env) g fun g' r => ∀ n, r = .ok n →
      g' = { g with reading := none, cleared := some walletAddress } := by
  refine follows_call trivial ?_ error_ne_ok
  intro jtis _
  split_ifs with hnone
  · cases List.length_eq_zero_iff.mp hnone
    refine follows_call rfl ?_ error_ne_ok
    rintro ⟨⟩ - n -
    rfl
  · refine follows_call rfl ?_ error_ne_ok
    rintro ⟨⟩ - n -
    rfl

theorem addSession_follows {walletAddress jti : String} (ttl : ℕ) (h : jti ∈ g.pending) :
    (addSession walletAddress jti ttl).Follows (knowing lib env) g fun g' r => ∀ u, r = .ok u →
      g' = { g with
        pending := g.pending.erase jti
        half := none
        registered := (jti, walletAddress) :: g.registered } := by
  refine follows_call h ?_ error_ne_ok
  rintro ⟨⟩ -
  refine follows_last rfl ?_ error_ne_ok
  rintro ⟨⟩ - u -
  rfl

/-! ## The services -/

theorem verifyToken_follows (token message : String) :
    (verifyToken lib env token message).Follows (knowing lib env) g fun g' r => ∀ payload,
      r = .ok payload → g' = g ∧ Says lib env token payload := by
  refine follows_call trivial ?_ error_ne_ok
  intro now _
  cases hsecret : getJwtSecret env with
  | error e => exact fun _ h => nomatch h
  | ok secret =>
    rw [follows_orThrow]
    refine ⟨fun payload hpayload payload' heq => ?_, fun _ _ h => nomatch h⟩
    cases heq
    obtain ⟨exp, hdecode, -⟩ := Libraries.decode_of_verify hpayload
    exact ⟨rfl, secret, exp, hsecret, hdecode⟩

/-- A family is given or drawn. -/
theorem familyOf_follows (existingFamilyId : Option String) :
    (familyOf existingFamilyId).Follows (knowing lib env) g fun g' r => ∀ familyId,
      r = .ok familyId → g' = g ∨ g' = { g with pending := familyId :: g.pending } := by
  cases existingFamilyId with
  | some familyId => exact fun _ _ => .inl rfl
  | none =>
    refine follows_last trivial ?_ error_ne_ok
    rintro familyId - _ ⟨⟩
    exact .inr rfl

/-- The second of two numbers is still there when the first one has been used. -/
theorem mem_erase_second {a b : String} {pending l : List String}
    (h : (b :: a :: pending).Sublist l) : b ∈ l.erase a := by
  have hsub : ((b :: a :: pending).erase a).Sublist (l.erase a) := h.erase a
  refine hsub.subset ?_
  by_cases hab : b = a
  · subst hab
    rw [List.erase_cons_head]
    exact List.mem_cons_self
  · exact (List.mem_erase_of_ne hab).mpr List.mem_cons_self

/-- Tokens that are issued are registered. -/
theorem issueTokenPair_follows (userId walletAddress : String)
    (existingFamilyId : Option String) :
    (issueTokenPair lib env userId walletAddress existingFamilyId).Follows (knowing lib env) g
      fun g' r => ∀ pair, r = .ok pair → ∃ pending registered,
        g' = { g with pending := pending, half := none, registered := registered } ∧
        Issued lib env g' walletAddress pair := by
  unfold issueTokenPair
  cases hsecret : getJwtSecret env with
  | error e => exact fun _ h => nomatch h
  | ok secret =>
    refine follows_call trivial (fun accessJti haccess => ?_) error_ne_ok
    refine follows_call trivial (fun refreshJti hrefresh => ?_) error_ne_ok
    refine follows_call trivial (fun iat _ => ?_) error_ne_ok
    refine follows_call trivial (fun iat' _ => ?_) error_ne_ok
    refine follows_step (familyOf_follows existingFamilyId) ?_ error_ne_ok
    intro g' familyId hg'
    obtain ⟨pending, hpending, rfl⟩ : ∃ pending,
        (refreshJti :: accessJti :: g.pending).Sublist pending ∧
          g' = { g with pending := pending } := by
      rcases hg' with rfl | rfl
      · exact ⟨_, List.Sublist.refl _, rfl⟩
      · exact ⟨_, List.sublist_cons_self _ _, rfl⟩
    have haccess' : accessJti ∈ pending := hpending.subset (by simp)
    refine follows_call trivial (fun expiresAt _ => ?_) error_ne_ok
    refine follows_call ⟨secret, ⟨_, _, _, refreshJti⟩, _, _, hsecret,
      hpending.subset (by simp), rfl⟩ (fun _ _ => ?_) error_ne_ok
    refine follows_step (addSession_follows env.accessTtl haccess') ?_ error_ne_ok
    rintro g' ⟨⟩ hg'
    subst hg'
    refine follows_step (addSession_follows env.refreshTtl (mem_erase_second hpending)) ?_
      error_ne_ok
    rintro g' ⟨⟩ hg'
    subst hg'
    rintro pair ⟨⟩
    refine ⟨_, _, rfl, secret, userId, accessJti, refreshJti, _, _, hsecret, haccess, hrefresh,
      rfl, rfl, ?_, ?_⟩
    · exact List.mem_cons_of_mem _ List.mem_cons_self
    · exact List.mem_cons_self

/-- A nonce is found before it is used up. -/
theorem verifySignatureAndLogin_follows (walletAddress signature : String) :
    (verifySignatureAndLogin lib env walletAddress signature).Follows (knowing lib env) g
      fun g' r => ∀ pair, r = .ok pair → g'.call = g.call ∧
        ∃ id, g'.spent = some (.nonce id) ∧ Issued lib env g' walletAddress pair := by
  refine follows_guard (fun _ => ?_) error_ne_ok
  refine follows_call trivial (fun now _ => ?_) error_ne_ok
  refine follows_call trivial (fun found _ => ?_) error_ne_ok
  refine follows_some (fun nonceRecord hfound => ?_) error_ne_ok
  subst hfound
  refine follows_guard (fun _ => ?_) error_ne_ok
  refine follows_call rfl (fun _ _ => ?_) error_ne_ok
  refine follows_call trivial (fun now' _ => ?_) error_ne_ok
  refine follows_call trivial (fun user _ => ?_) error_ne_ok
  refine (issueTokenPair_follows user.id walletAddress none).mono ?_
  intro g' r hissue pair hpair
  obtain ⟨pending, registered, rfl, hissued⟩ := hissue pair hpair
  exact ⟨rfl, nonceRecord.id, rfl, hissued⟩

/-- A refresh token is found unused before it is used up, and its session is removed. -/
theorem exchange_follows (payload : JwtPayload) (storedToken : RefreshTokenDocument)
    (hnone : g.deleted = [])
    (hfound : storedToken.revoked = false → storedToken.used = false → g.found = some (.refresh storedToken.tokenHash, storedToken.id)) :
    (exchange lib env payload storedToken).Follows (knowing lib env) g
      fun g' r => ∀ pair, r = .ok pair → g'.call = g.call ∧
        g'.spent = some (.refresh storedToken.tokenHash) ∧ g.seen ⊆ g'.seen ∧
        (payload.jti ≠ "" → payload.jti ∈ g'.deleted) ∧
        Issued lib env g' payload.wallet pair := by
  unfold exchange
  split_ifs with hrevoked hused hjti
  · exact fun _ h => nomatch h
  · refine follows_call trivial (fun _ _ => ?_) error_ne_ok
    refine follows_step (removeAllSessions_follows payload.wallet) ?_ error_ne_ok
    exact fun _ _ _ _ h => nomatch h
  · have hfound' := hfound (Bool.eq_false_iff.mpr hrevoked) (Bool.eq_false_iff.mpr hused)
    refine follows_call ⟨_, hfound'⟩ (fun _ _ => ?_) error_ne_ok
    have hkept : payload.jti ∉ (g.after (.useRefreshToken storedToken.id) ()).deleted := by
      show payload.jti ∉ g.deleted
      rw [hnone]
      exact List.not_mem_nil
    refine follows_step (removeSession_follows hkept) ?_ error_ne_ok
    rintro g' ⟨⟩ ⟨seen, hseen, rfl⟩
    refine (issueTokenPair_follows payload.sub payload.wallet _).mono ?_
    intro g' r hissue pair hpair
    obtain ⟨pending, registered, rfl, hissued⟩ := hissue pair hpair
    refine ⟨rfl, ?_, hseen, fun _ => List.mem_cons_self, hissued⟩
    show g.found.map (·.1) = _
    rw [hfound']
    rfl
  · have hfound' := hfound (Bool.eq_false_iff.mpr hrevoked) (Bool.eq_false_iff.mpr hused)
    refine follows_call ⟨_, hfound'⟩ (fun _ _ => ?_) error_ne_ok
    refine (issueTokenPair_follows payload.sub payload.wallet _).mono ?_
    intro g' r hissue pair hpair
    obtain ⟨pending, registered, rfl, hissued⟩ := hissue pair hpair
    refine ⟨rfl, ?_, fun _ h => h, fun hne => absurd hne hjti, hissued⟩
    show g.found.map (·.1) = _
    rw [hfound']
    rfl

/-- What `refreshTokens` does once the session of the token has been looked at. -/
theorem findAndExchange_follows (refreshToken : String) (payload : JwtPayload)
    (hnone : g.deleted = []) :
    (do
      let found ← call (.findRefreshToken (lib.hashToken refreshToken))
      let storedToken ← orThrow found (unauthorized "Refresh token has been revoked or expired")
      exchange lib env payload storedToken : AuthProgram TokenPair).Follows (knowing lib env) g
      fun g' r => ∀ pair, r = .ok pair → g'.call = g.call ∧
        g'.spent = some (.refresh (lib.hashToken refreshToken)) ∧ g.seen ⊆ g'.seen ∧
        (payload.jti ≠ "" → payload.jti ∈ g'.deleted) ∧
        Issued lib env g' payload.wallet pair := by
  refine follows_call trivial (fun found hexpected => ?_) error_ne_ok
  refine follows_some (fun storedToken hfound => ?_) error_ne_ok
  subst hfound
  have hhash : storedToken.tokenHash = lib.hashToken refreshToken := hexpected
  have hsame : (g.after (.findRefreshToken (lib.hashToken refreshToken))
      (some storedToken)).call = g.call ∧ (g.after (.findRefreshToken
      (lib.hashToken refreshToken)) (some storedToken)).seen = g.seen ∧ (g.after
      (.findRefreshToken (lib.hashToken refreshToken)) (some storedToken)).deleted =
        g.deleted := by
    rw [Place.after_findRefreshToken]
    split_ifs
    · exact ⟨rfl, rfl, rfl⟩
    · exact ⟨rfl, rfl, rfl⟩
  refine (exchange_follows payload storedToken (hsame.2.2.trans hnone) ?_).mono ?_
  · intro hrevoked hused
    rw [Place.after_findRefreshToken, if_pos ⟨hrevoked, hused⟩]
  · intro g' r hexchange pair hpair
    obtain ⟨hcall, hspent, hseen, hdeleted, hissued⟩ := hexchange pair hpair
    rw [hsame.1] at hcall
    rw [hsame.2.1] at hseen
    exact ⟨hcall, hhash ▸ hspent, hseen, hdeleted, hissued⟩

/-- A token that is exchanged was active, and its session has been removed. -/
theorem refreshTokens_follows (refreshToken : String) (hnone : g.deleted = []) :
    (refreshTokens lib env refreshToken).Follows (knowing lib env) g
      fun g' r => ∀ pair, r = .ok pair → g'.call = g.call ∧ ∃ payload,
        g'.spent = some (.refresh (lib.hashToken refreshToken)) ∧
        Says lib env refreshToken payload ∧
        (payload.jti ≠ "" → payload.jti ∈ g'.deleted ∧
          ∃ wallet, (payload.jti, wallet) ∈ g'.seen) ∧
        Issued lib env g' payload.wallet pair := by
  refine follows_step (verifyToken_follows _ _) ?_ error_ne_ok
  rintro g' payload ⟨rfl, htells⟩
  refine follows_guard (fun _ => ?_) error_ne_ok
  split_ifs with hjti
  · have hkept : payload.jti ∉ g'.deleted := by
      rw [hnone]
      exact List.not_mem_nil
    refine follows_step (isActive_follows hkept) ?_ error_ne_ok
    intro g'' active hactive
    refine follows_guard (fun htrue => ?_) error_ne_ok
    obtain ⟨wallet, rfl⟩ := hactive htrue
    refine (findAndExchange_follows refreshToken payload (by exact hnone)).mono ?_
    intro g'' r hexchange pair hpair
    obtain ⟨hcall, hspent, hseen, hdeleted, hissued⟩ := hexchange pair hpair
    exact ⟨hcall, payload, hspent, htells,
      fun hne => ⟨hdeleted hne, wallet, hseen List.mem_cons_self⟩, hissued⟩
  · refine (findAndExchange_follows refreshToken payload hnone).mono ?_
    intro g'' r hexchange pair hpair
    obtain ⟨hcall, hspent, hseen, hdeleted, hissued⟩ := hexchange pair hpair
    exact ⟨hcall, payload, hspent, htells, fun hne => absurd hne hjti, hissued⟩

/-- A confirmation token is found unused before it is used up. -/
theorem verifyAndConsumeToken_follows (rawToken action resourceId adminId : String) :
    (verifyAndConsumeToken lib rawToken action resourceId adminId).Follows (knowing lib env) g
      fun g' r => ∀ u, r = .ok u → g'.call = g.call ∧
        g'.spent = some (.confirmation (lib.hashToken rawToken)) := by
  refine follows_call trivial (fun found hexpected => ?_) error_ne_ok
  refine follows_some (fun record hfound => ?_) error_ne_ok
  subst hfound
  have hhash : record.tokenHash = lib.hashToken rawToken := hexpected
  refine follows_call trivial (fun now _ => ?_) error_ne_ok
  have hchecks : (checkConfirmation record action resourceId adminId now).Follows
      (knowing lib env) (g.after (.findConfirmation (lib.hashToken rawToken)) (some record))
      fun g' r => ∀ u, r = .ok u → g' = { g with
        found := some (.confirmation record.tokenHash, record.id) } := by
    refine follows_guard (fun hused => ?_) error_ne_ok
    refine follows_guard (fun _ => ?_) error_ne_ok
    refine follows_guard (fun _ => ?_) error_ne_ok
    rw [follows_check]
    refine ⟨fun _ _ _ => ?_, fun _ _ h => nomatch h⟩
    rw [Place.after_findConfirmation, if_pos hused]
  refine follows_step hchecks ?_ error_ne_ok
  rintro g' ⟨⟩ rfl
  refine follows_last ⟨record.tokenHash, rfl⟩ (fun _ _ _ _ => ⟨rfl, ?_⟩) error_ne_ok
  rw [← hhash]
  rfl

/-- The wallet's sessions are deleted. -/
theorem revokeAllSessions_follows (walletAddress userId : String) :
    (revokeAllSessions walletAddress userId).Follows (knowing lib env) g
      fun g' r => ∀ n, r = .ok n → g'.call = g.call ∧ g'.cleared = some walletAddress := by
  refine follows_step (removeAllSessions_follows walletAddress) ?_ error_ne_ok
  rintro g' n rfl
  refine follows_call trivial (fun _ _ => ?_) error_ne_ok
  exact fun _ _ => ⟨rfl, rfl⟩

theorem requestNonce_follows (walletAddress : String) :
    (requestNonce env walletAddress).Follows (knowing lib env) g
      fun g' r => ∀ a, r = .ok a → g'.call = g.call := by
  refine follows_guard (fun _ => ?_) error_ne_ok
  refine follows_call trivial (fun rawHex _ => ?_) error_ne_ok
  refine follows_call trivial (fun now _ => ?_) error_ne_ok
  refine follows_call trivial (fun now' _ => ?_) error_ne_ok
  refine follows_call trivial (fun _ _ => ?_) error_ne_ok
  refine follows_call trivial (fun _ _ => ?_) error_ne_ok
  exact fun _ _ => rfl

theorem requestToken_follows (adminId action resourceId : String) :
    (requestToken lib env adminId action resourceId).Follows (knowing lib env) g
      fun g' r => ∀ a, r = .ok a → g'.call = g.call := by
  refine follows_call trivial (fun rawToken _ => ?_) error_ne_ok
  refine follows_call trivial (fun now _ => ?_) error_ne_ok
  refine follows_call trivial (fun _ _ => ?_) error_ne_ok
  exact fun _ _ => rfl

theorem verifyAccessToken_follows (token : String) (hnone : g.deleted = []) :
    (verifyAccessToken lib env token).Follows (knowing lib env) g
      fun g' r => ∀ payload, r = .ok payload → g'.call = g.call ∧
        Says lib env token payload ∧ ∃ wallet, (payload.jti, wallet) ∈ g'.seen := by
  refine follows_step (verifyToken_follows _ _) ?_ error_ne_ok
  rintro g' payload ⟨rfl, htells⟩
  refine follows_guard (fun _ => ?_) error_ne_ok
  refine follows_guard (fun _ => ?_) error_ne_ok
  have hkept : payload.jti ∉ g'.deleted := by
    rw [hnone]
    exact List.not_mem_nil
  refine follows_step (isActive_follows hkept) ?_ error_ne_ok
  intro g'' active hactive
  refine follows_guard (fun htrue => ?_) error_ne_ok
  obtain ⟨wallet, rfl⟩ := hactive htrue
  rintro _ ⟨⟩
  exact ⟨rfl, htells, wallet, List.mem_cons_self⟩

variable (lib env) in
/-- Every call keeps the discipline. -/
theorem program_follows (c : AuthCall) :
    (c.program lib env).Follows (knowing lib env) (.first c) (Finished lib env) := by
  have herror : ∀ g e, Finished lib env g (.error e) := fun _ _ _ h => nomatch h
  cases c with
  | requestNonce walletAddress =>
    refine follows_step (requestNonce_follows walletAddress) ?_ herror
    rintro g ⟨nonce, expiresAt⟩ hcall result ⟨⟩
    unfold Place.Returns
    rw [hcall]
    exact ⟨nonce, expiresAt, rfl⟩
  | verifySignatureAndLogin walletAddress signature =>
    refine follows_step (verifySignatureAndLogin_follows walletAddress signature) ?_ herror
    rintro g pair ⟨hcall, id, hspent, hissued⟩ result ⟨⟩
    unfold Place.Returns
    rw [hcall]
    exact ⟨id, pair, rfl, hspent, hissued⟩
  | refreshTokens refreshToken =>
    refine follows_step (refreshTokens_follows refreshToken rfl) ?_ herror
    rintro g pair ⟨hcall, payload, hspent, htells, hremoved, hissued⟩ result ⟨⟩
    unfold Place.Returns
    rw [hcall]
    exact ⟨payload, pair, rfl, hspent, htells, hremoved, hissued⟩
  | logout jti =>
    refine follows_step (removeSession_follows List.not_mem_nil) ?_ herror
    rintro g ⟨⟩ ⟨seen, -, rfl⟩ result ⟨⟩
    exact rfl
  | revokeAllSessions walletAddress userId =>
    refine follows_step (revokeAllSessions_follows walletAddress userId) ?_ herror
    rintro g n ⟨hcall, hcleared⟩ result ⟨⟩
    unfold Place.Returns
    rw [hcall]
    exact ⟨n, rfl, hcleared⟩
  | verifyAccessToken token =>
    refine follows_step (verifyAccessToken_follows token rfl) ?_ herror
    rintro g payload ⟨hcall, htells, wallet, hseen⟩ result ⟨⟩
    unfold Place.Returns
    rw [hcall]
    exact ⟨payload, wallet, rfl, htells, hseen⟩
  | requestToken adminId action resourceId =>
    refine follows_step (requestToken_follows adminId action resourceId) ?_ herror
    rintro g ⟨token, expiresAt⟩ hcall result ⟨⟩
    unfold Place.Returns
    rw [hcall]
    exact ⟨token, expiresAt, rfl⟩
  | verifyAndConsumeToken rawToken action resourceId adminId =>
    refine follows_step (verifyAndConsumeToken_follows rawToken action resourceId adminId) ?_
      herror
    rintro g ⟨⟩ ⟨hcall, hspent⟩ result ⟨⟩
    unfold Place.Returns
    rw [hcall]
    exact ⟨rfl, hspent⟩

end

/-! ## Runs -/

/-- The calls and the stores. -/
abbrev AuthSystem := System AuthAnswer AuthError AuthResult AuthStore

abbrev AuthEvent := Event AuthAnswer AuthError AuthCall AuthMove

/-- Where a call stands that has not failed. -/
abbrev stands (tr : List (AuthSystem × AuthEvent)) (t : AuthSystem) : ℕ → Option Place :=
  standing (knowing lib env) Place.first tr t

variable {lib env} in
/-- Where a call stands that has returned. -/
theorem returns_of_run {s : AuthStore} {tr : List (AuthSystem × AuthEvent)} {t : AuthSystem}
    (hrun : Run (System.Step (AuthCall.program lib env) authServer) (.idle s) tr t) {i : ℕ}
    {result : AuthResult} (hi : t.running i = some (.done (.ok result))) :
    ∃ g, inputOf i tr = some g.call ∧ placeOf (knowing lib env) Place.first i tr = some g ∧
      stands lib env tr t i = some g ∧ g.Returns lib env result := by
  obtain ⟨g, hg, hfinished⟩ := place_of_done
    (follows_of_run expected_of_serves (program_follows lib env) hrun i) hi
  have hcall : (placeOf (knowing lib env) Place.first i tr).map Place.call =
      (inputOf i tr).map fun call => (Place.first call).call :=
    map_placeOf Place.call_next i tr
  rw [hg] at hcall
  obtain ⟨call, hinput, hsame⟩ := Option.map_eq_some_iff.mp hcall.symm
  exact ⟨g, hinput.trans (congrArg some hsame), hg, (standing_of_ok hi).trans hg,
    hfinished result rfl⟩

/-! ## Runs on samples -/

/-- Moves of the calls. -/
abbrev AuthScript := List (Async.Move AuthError AuthCall AuthMove String)

/-- The next `n` requests of the `i`-th call are served, after its first `m` ones; the
    random numbers tell the call and the request. -/
def serveNext (i m n : ℕ) : AuthScript :=
  (List.range n).map fun k => .serve i (toString i ++ "-" ++ toString (m + k))

/-- The wallet of a player. -/
def sampleWallet : String := "GBRPYHIL2CI3FNQ4BXLFMNDLFJUNPU2HY3ZMFSHONUCEOASW7QC7OX2H"

/-- A login with the nonce that the second call has drawn. -/
def sampleLogin : AuthCall :=
  .verifySignatureAndLogin sampleWallet (sampleWallet ++ NONCE_PREFIX ++ "2-0")

/-- The tokens that the call of number 0 returns if it is a login. -/
def sampleTokens : TokenPair where
  accessToken := sampleLibraries.sign ⟨"0-4", sampleWallet, .access, "0-5"⟩
    "0123456789abcdef0123456789abcdef" 0 1
  refreshToken := sampleLibraries.sign ⟨"0-4", sampleWallet, .refresh, "0-6"⟩
    "0123456789abcdef0123456789abcdef" 0 2

end InverseArena.Backend.Auth
