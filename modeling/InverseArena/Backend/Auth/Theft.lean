import InverseArena.Backend.Auth.OneTime
import InverseArena.Backend.Auth.Sessions

/-!
# Is the theft of a refresh token detected?

A refresh token that has been exchanged is stored as used, and `refreshTokens` revokes
its family and removes the sessions of the wallet when it finds a used token. But the
exchange has also removed the session of the token, and `refreshTokens` looks at the
session first.

Results:
* `jti_of_exchanged`: a token that has been exchanged has a session that is gone.
* `refreshTokens_of_gone`: such a token is rejected, and nothing changes.
* `theft_detected_iff`: presenting it again leaves its family revoked and the sessions of
  the wallet inactive only if they were so before.
* `not_theft_detected`: a token that is exchanged and presented again.
-/

namespace InverseArena.Backend.Auth

open Async Transition Holdings

variable {lib : Libraries} {env : Environment} {s s' : AuthStore} {i k : ℕ}
variable {gs : ℕ → Option Place} {o : Option Place} {g g' : Place}

/-! ## Signed tokens -/

/-- The token with this hash was signed for a session that has a number. -/
def SignedFor (lib : Libraries) (env : Environment) (tokenHash : String) : Prop :=
  ∃ secret payload iat expiresIn, getJwtSecret env = .ok secret ∧ payload.jti ≠ "" ∧
    tokenHash = lib.hashToken (lib.sign payload secret iat expiresIn)

/-- What a token says that was signed for a session. -/
theorem SignedFor.jti_ne (hlib : lib.Lawful) {token : String} {payload : JwtPayload}
    (h : SignedFor lib env (lib.hashToken token)) (htells : Says lib env token payload) :
    payload.jti ≠ "" := by
  obtain ⟨secret, payload', iat, expiresIn, hsecret, hjti, hhash⟩ := h
  obtain ⟨secret', exp, hsecret', hdecode⟩ := htells
  cases Except.ok.inj (hsecret.symm.trans hsecret')
  rw [hlib.hash_injective _ _ hhash, hlib.decode_sign] at hdecode
  cases hdecode
  exact hjti

/-- The hashes of the tokens that are stored. -/
def hashes (s : AuthStore) : List String := s.refreshTokens.map (·.tokenHash)

/-- Only `createRefreshToken` stores a new hash. -/
theorem hashes_of_serves {q : AuthRequest} {a : AuthAnswer q}
    (h : authServer.serves i q s a s') : hashes s' = hashes s ∨
      ∃ tokenHash familyId userId expiresAt,
        q = .createRefreshToken tokenHash familyId userId expiresAt ∧
        hashes s' = hashes s ++ [tokenHash] := by
  cases q with
  | createRefreshToken tokenHash familyId userId expiresAt =>
    obtain ⟨-, rfl⟩ := h
    refine .inr ⟨tokenHash, familyId, userId, expiresAt, rfl, ?_⟩
    unfold hashes
    rw [List.map_append]
    rfl
  | useRefreshToken id =>
    cases h
    exact .inl (AuthStore.hashes_mapRefreshTokens _ fun _ => rfl)
  | revokeFamily familyId =>
    cases h
    exact .inl (AuthStore.hashes_mapRefreshTokens _ fun _ => rfl)
  | revokeUser userId =>
    cases h
    exact .inl (AuthStore.hashes_mapRefreshTokens _ fun _ => rfl)
  | upsertUser walletAddress now =>
    have hupserts : Upserts s walletAddress now a s' := h
    unfold Upserts at hupserts
    split at hupserts
    · obtain ⟨-, rfl⟩ := hupserts
      exact .inl rfl
    · obtain ⟨-, -, -, -, rfl⟩ := hupserts
      exact .inl rfl
  | now => exact .inl (congrArg hashes h.2)
  | random =>
    obtain ⟨-, -, rfl⟩ := h
    exact .inl rfl
  | findNonce walletAddress now => exact .inl (congrArg hashes h.2)
  | findRefreshToken tokenHash => exact .inl (congrArg hashes h.2)
  | createConfirmation adminId tokenHash action resourceId expiresAt =>
    obtain ⟨-, rfl⟩ := h
    exact .inl rfl
  | findConfirmation tokenHash => exact .inl (congrArg hashes h.2)
  | get jti => exact .inl (congrArg hashes h.2)
  | smembers walletAddress => exact .inl (congrArg hashes h.2)
  | execDeletes jtis walletAddress =>
    obtain ⟨-, rfl⟩ := h
    exact .inl rfl
  | _ =>
    cases h
    exact .inl rfl

/-- What a call holds after a request it held before, or it has just been handed out. -/
theorem Place.has_after {q : AuthRequest} {a : AuthAnswer q} {c : Credential}
    (h : (g.after q a).has c) : g.has c ∨ ∃ id, unusedOf q a = some (c, id) := by
  cases hunused : unusedOf q a with
  | some found =>
    rw [after_of_unused g hunused] at h
    rcases h with h | h
    · exact .inr ⟨found.2, by rw [← Option.some.inj h]⟩
    · exact .inl (.inr h)
  | none =>
    cases hmarks : marks q with
    | false =>
      obtain ⟨hfound, hspent⟩ := g.after_keeps hunused hmarks
      unfold has finds at h ⊢
      rw [hfound, hspent] at h
      exact .inl h
    | true =>
      cases q with
      | useNonce id =>
        rcases h with h | h
        · cases h
        · exact .inl (.inl h)
      | useRefreshToken id =>
        rcases h with h | h
        · cases h
        · exact .inl (.inl h)
      | useConfirmation id =>
        rcases h with h | h
        · cases h
        · exact .inl (.inl h)
      | _ => cases hmarks

/-- The tokens that are stored, and those that calls hold, were signed for sessions. -/
structure Signed (lib : Libraries) (env : Environment) (s : AuthStore)
    (gs : ℕ → Option Place) : Prop where
  rows : ∀ tokenHash ∈ hashes s, SignedFor lib env tokenHash
  held : ∀ {i tokenHash}, Held Place.has gs i (.refresh tokenHash) → SignedFor lib env tokenHash

namespace Signed

theorem empty : Signed lib env .empty fun _ => none where
  rows _ h := nomatch h
  held h := absurd h not_held_nobody

/-- A call ends, or is started. -/
theorem drop (h : Signed lib env s gs) (i : ℕ) (ho : ∀ g ∈ o, ∃ call, g = .first call) :
    Signed lib env s (Function.update gs i o) where
  rows := h.rows
  held := by
    intro j tokenHash hj
    rcases held_update hj with ⟨g, hg, hhas⟩ | hj
    · obtain ⟨call, rfl⟩ := ho g hg
      exact absurd hhas (Place.not_has_first call _)
    · exact h.held hj

/-- The tokens that are stored after a request. -/
theorem rows_of_serves (h : Signed lib env s gs) (hnumbers : Numbers s gs) (hi : gs i = some g)
    {q : AuthRequest} {a : AuthAnswer q} (hallowed : g.allows lib env q)
    (hserves : authServer.serves i q s a s') :
    ∀ tokenHash ∈ hashes s', SignedFor lib env tokenHash := by
  intro tokenHash hmem
  rcases hashes_of_serves hserves with hsame | ⟨new, familyId, userId, expiresAt, rfl, hadded⟩
  · rw [hsame] at hmem
    exact h.rows tokenHash hmem
  · rw [hadded] at hmem
    rcases List.mem_append.mp hmem with hold | hnew
    · exact h.rows tokenHash hold
    · cases List.mem_singleton.mp hnew
      obtain ⟨secret, payload, iat, expiresIn, hsecret, hpending, hhash⟩ := hallowed
      refine ⟨secret, payload, iat, expiresIn, hsecret, ?_, hhash⟩
      intro hjti
      have hdrawn := hnumbers.drawn (.inl ⟨i, (held_of_eq hi).mpr hpending⟩)
      rw [hjti] at hdrawn
      exact hnumbers.nonempty hdrawn

/-- A request that is fulfilled. -/
theorem ok (h : Signed lib env s gs) (hnumbers : Numbers s gs) (hi : gs i = some g)
    {q : AuthRequest} {a : AuthAnswer q} (hallowed : g.allows lib env q)
    (hserves : authServer.serves i q s a s') :
    Signed lib env s' (Function.update gs i (some (g.after q a))) where
  rows := h.rows_of_serves hnumbers hi hallowed hserves
  held := by
    intro j tokenHash hj
    rcases held_update hj with ⟨_, ⟨⟩, hhas⟩ | hj
    · rcases Place.has_after hhas with hhas | ⟨id, hunused⟩
      · exact h.held ((held_of_eq hi).mpr hhas)
      · obtain ⟨-, row, hrow, hhash, -⟩ := AuthStore.stores_of_unused hserves hunused
        exact h.rows tokenHash (List.mem_map.mpr ⟨row, hrow, hhash⟩)
    · exact h.held hj

end Signed

/-! ## Tokens that have been exchanged -/

section

variable {tr : List (AuthSystem × AuthEvent)} {t : AuthSystem}
variable (hrun : Run (System.Step (AuthCall.program lib env) authServer) (.idle .empty) tr t)

include hrun

theorem signed_of_run : Signed lib env t.shared (stands lib env tr t) := by
  refine standing_of_history (I := fun _ => Signed lib env) (K := fun _ _ _ => True)
    (Q := Finished lib env) expected_of_serves (program_follows lib env) Signed.empty ?_ ?_ ?_ ?_
    hrun (EachStep.of_forall fun _ _ _ => trivial)
  · intro tr s gs i h
    exact h.drop i (by rintro g ⟨⟩)
  · intro tr t i c _ h _ _
    exact h.drop i (by rintro g ⟨⟩; exact ⟨c, rfl⟩)
  · intro tr t i g r k s' hrun _ h _ hi hallowed hreply
    have hnumbers := numbers_of_run hrun
    cases hreply with
    | served hserves => exact h.ok hnumbers hi hallowed hserves
    | lost hserves =>
      have hstored : Signed lib env s' (stands lib env tr t) :=
        ⟨h.rows_of_serves hnumbers hi hallowed hserves, h.held⟩
      exact hstored.drop i (by rintro g ⟨⟩; exact ⟨_, rfl⟩)
    | refused => exact h.drop i (by rintro g ⟨⟩; exact ⟨_, rfl⟩)
  · rintro tr t ⟨milliseconds⟩ s' h rfl
    exact ⟨h.rows, h.held⟩

/-- The session of a token that has been exchanged is gone. -/
theorem jti_of_exchanged (hlib : lib.Lawful) {token : String} {payload : JwtPayload}
    (hinput : inputOf i tr = some (.refreshTokens token)) (hreturned : t.returned i = true)
    (htells : Says lib env token payload) :
    payload.jti ≠ "" ∧ t.shared.jtiKeys payload.jti = none := by
  obtain ⟨result, hresult⟩ := System.exists_of_returned hreturned
  obtain ⟨g, hcall, -, hg, hreturns⟩ := returns_of_run hrun hresult
  unfold Place.Returns at hreturns
  rw [← Option.some.inj (hinput.symm.trans hcall)] at hreturns
  obtain ⟨payload', pair, -, hspent, htells', hremoved, -⟩ := hreturns
  cases htells.unique htells'
  have hjti : payload.jti ≠ "" :=
    ((signed_of_run hrun).held ⟨g, hg, .inr hspent⟩).jti_ne hlib htells
  obtain ⟨hdeleted, hseen⟩ := hremoved hjti
  exact ⟨hjti, (numbers_of_run hrun).removed ⟨g, hg, hseen, hdeleted⟩⟩

end

/-! ## Presenting a token -/

/-- The program only reads, and what it returns is as `R` says. -/
def Reads {α : Type} (s : AuthStore) (R : α → Prop) (p : AuthProgram α) : Prop :=
  ∀ k, Ensures authServer k p s fun _ r s' => s' = s ∧ ∀ a, r = .ok a → R a

section

variable {α β : Type} {R : α → Prop} {R' : β → Prop}

theorem reads_call {q : AuthRequest} {R : AuthAnswer q → Prop}
    (hq : ∀ k a s', authServer.serves k q s a s' → s' = s ∧ R a) : Reads s R (call q) := by
  intro k
  unfold call
  rw [ensures_request]
  refine ⟨?_, ?_, ?_⟩
  · intro a s' hserves
    obtain ⟨hsame, ha⟩ := hq k a s' hserves
    refine ⟨hsame, ?_⟩
    rintro _ ⟨⟩
    exact ha
  · exact fun a e s' hserves => ⟨(hq k a s' hserves).1, fun _ h => nomatch h⟩
  · exact fun e => ⟨rfl, fun _ h => nomatch h⟩

theorem reads_throw (e : AuthError) : Reads s R (throw e : AuthProgram α) :=
  fun _ => (ensures_throw e).mpr ⟨rfl, fun _ h => nomatch h⟩

theorem reads_pure {a : α} (ha : R a) : Reads s R (pure a : AuthProgram α) := by
  intro k
  rw [ensures_pure]
  refine ⟨rfl, ?_⟩
  rintro _ ⟨⟩
  exact ha

theorem reads_bind {p : AuthProgram α} {f : α → AuthProgram β} (hp : Reads s R p)
    (hf : ∀ a, R a → Reads s R' (f a)) : Reads s R' (p >>= f) := by
  intro k
  rw [ensures_bind]
  refine (hp k).mono ?_
  rintro rs r s' ⟨rfl, hr⟩
  cases r with
  | ok a => exact hf a (hr a rfl) k
  | error e => exact ⟨rfl, fun _ h => nomatch h⟩

theorem reads_check {p : Prop} [Decidable p] {e : AuthError} :
    Reads s (fun _ => p) (check p e : AuthProgram Unit) := by
  unfold check
  split_ifs with hp
  · exact reads_pure hp
  · exact reads_throw e

end

/-- What a token says, while it is valid. -/
theorem verifyToken_reads {token message : String} {payload : JwtPayload}
    (htells : Says lib env token payload) :
    Reads s (· = payload) (verifyToken lib env token message) := by
  obtain ⟨secret, exp, hsecret, hdecode⟩ := htells
  refine reads_bind (reads_call (R := fun _ => True) fun _ _ _ h => ⟨h.2, trivial⟩) fun now _ => ?_
  rw [hsecret]
  dsimp only
  unfold Libraries.verify
  rw [hdecode]
  dsimp only
  split_ifs
  · exact reads_pure rfl
  · exact reads_throw _

/-- A session whose key is gone is not active. -/
theorem isActive_reads {jti : String} (hgone : s.jtiKeys jti = none) :
    Reads s (· = false) (isActive jti) := by
  have hnone : s.session jti = none := by
    unfold AuthStore.session
    rw [hgone]
  refine reads_bind (reads_call (R := (· = none)) fun _ _ _ h => ⟨h.2, h.1.trans hnone⟩) ?_
  rintro _ rfl
  exact reads_pure rfl

/-- A token whose session is gone is rejected. -/
theorem refreshTokens_of_gone {token : String} {payload : JwtPayload}
    (htells : Says lib env token payload) (hjti : payload.jti ≠ "")
    (hgone : s.jtiKeys payload.jti = none) :
    Reads s (fun _ => False) (refreshTokens lib env token) := by
  refine reads_bind (verifyToken_reads htells) ?_
  rintro _ rfl
  refine reads_bind reads_check fun _ _ => ?_
  rw [if_pos hjti]
  refine reads_bind (isActive_reads hgone) ?_
  rintro _ rfl
  exact reads_bind reads_check fun _ h => nomatch h

/-! ## The reaction to a theft -/

/-- The family of the token is revoked, and no session of the wallet is active. -/
structure Contained (lib : Libraries) (token walletAddress : String) (s : AuthStore) : Prop where
  family : ∀ row ∈ s.refreshTokens, row.tokenHash = lib.hashToken token →
    ∀ other ∈ s.refreshTokens, other.familyId = row.familyId → other.revoked = true
  sessions : ∀ jti, s.session jti ≠ some walletAddress

/-- When a token that has been exchanged is presented again, its theft is contained
    exactly if it was so before. -/
theorem theft_detected_iff (hlib : lib.Lawful) {tr : List (AuthSystem × AuthEvent)}
    {t : AuthSystem}
    (hrun : Run (System.Step (AuthCall.program lib env) authServer) (.idle .empty) tr t)
    {token : String} {payload : JwtPayload} (hinput : inputOf i tr = some (.refreshTokens token))
    (hreturned : t.returned i = true) (htells : Says lib env token payload)
    {rs : List (Reply AuthAnswer AuthError)} {r : Except AuthError TokenPair}
    (hexec : Exec authServer k (refreshTokens lib env token) t.shared rs r s') :
    Contained lib token payload.wallet s' ↔ Contained lib token payload.wallet t.shared := by
  obtain ⟨hjti, hgone⟩ := jti_of_exchanged hrun hlib hinput hreturned htells
  obtain ⟨rfl, -⟩ := refreshTokens_of_gone htells hjti hgone k rs r s' hexec
  exact Iff.rfl

/-! ## A token that is presented again -/

/-- A login, and a refresh with its token. -/
def loginAndRefresh : AuthScript :=
  .start 2 (.requestNonce sampleWallet) :: serveNext 2 0 5 ++ .start 0 sampleLogin ::
    serveNext 0 0 16 ++ .start 3 (.refreshTokens sampleTokens.refreshToken) :: serveNext 3 0 17

/-- The token is exchanged and, still valid, presented again: neither its family nor the
    sessions that the exchange has started are touched. -/
theorem not_theft_detected : ∃ tr t rs s',
    Run (System.Step (AuthCall.program sampleLibraries sampleEnvironment) authServer)
      (.idle .empty) tr t ∧
      inputOf 3 tr = some (.refreshTokens sampleTokens.refreshToken) ∧ t.returned 3 = true ∧
      Exec authServer 4
        (refreshTokens sampleLibraries sampleEnvironment sampleTokens.refreshToken) t.shared rs
        (.error (unauthorized "Refresh token has been revoked")) s' ∧
      s'.refreshTokens.map (·.revoked) = [false, false] ∧
      ¬ Contained sampleLibraries sampleTokens.refreshToken sampleWallet s' := by
  obtain ⟨tr, t, hrun, hinput, hreturned, x, hx, hr, hrows, hactive⟩ : ∃ tr t,
      Run (System.Step (AuthCall.program sampleLibraries sampleEnvironment) authServer)
        (.idle .empty) tr t ∧
        inputOf 3 tr = some (.refreshTokens sampleTokens.refreshToken) ∧ t.returned 3 = true ∧
        ∃ x ∈ workingAuth.alone .rejected 4 [some "", some ""]
          (refreshTokens sampleLibraries sampleEnvironment sampleTokens.refreshToken) t.shared,
          x.2.1 = .error (unauthorized "Refresh token has been revoked") ∧
            x.2.2.refreshTokens.map (·.revoked) = [false, false] ∧
            x.2.2.session "3-7" = some sampleWallet := by
    have hreplay : ∃ r ∈ replay (workingAuth.perform
        (AuthCall.program sampleLibraries sampleEnvironment)) loginAndRefresh [] (.idle .empty),
        inputOf 3 r.1 = some (.refreshTokens sampleTokens.refreshToken) ∧
        r.2.returned 3 = true ∧
        ∃ x ∈ workingAuth.alone .rejected 4 [some "", some ""]
          (refreshTokens sampleLibraries sampleEnvironment sampleTokens.refreshToken) r.2.shared,
          x.2.1 = .error (unauthorized "Refresh token has been revoked") ∧
            x.2.2.refreshTokens.map (·.revoked) = [false, false] ∧
            x.2.2.session "3-7" = some sampleWallet := by
      decide +kernel
    exact exists_run_of_replay workingAuth.perform_step hreplay
  refine ⟨tr, t, x.1, x.2.2, hrun, hinput, hreturned, ?_, hrows, fun h => h.sessions _ hactive⟩
  rw [← hr]
  exact workingAuth.alone_exec _ _ _ hx

/-- The token is presented again after a revoke-all. -/
theorem theft_detected_iff_revoked : ∃ tr t rs r s',
    Run (System.Step (AuthCall.program sampleLibraries sampleEnvironment) authServer)
      (.idle .empty) tr t ∧ t.shared.refreshTokens.map (·.revoked) = [true, true] ∧
      Exec authServer 4
        (refreshTokens sampleLibraries sampleEnvironment sampleTokens.refreshToken) t.shared rs r
        s' ∧
      (Contained sampleLibraries sampleTokens.refreshToken sampleWallet s' ↔
        Contained sampleLibraries sampleTokens.refreshToken sampleWallet t.shared) := by
  obtain ⟨tr, t, hrun, hinput, hreturned, hrows, x, hx, -⟩ : ∃ tr t,
      Run (System.Step (AuthCall.program sampleLibraries sampleEnvironment) authServer)
        (.idle .empty) tr t ∧
        inputOf 3 tr = some (.refreshTokens sampleTokens.refreshToken) ∧ t.returned 3 = true ∧
        t.shared.refreshTokens.map (·.revoked) = [true, true] ∧
        ∃ x ∈ workingAuth.alone .rejected 4 [some "", some ""]
          (refreshTokens sampleLibraries sampleEnvironment sampleTokens.refreshToken) t.shared,
          True := by
    have hreplay : ∃ r ∈ replay (workingAuth.perform
        (AuthCall.program sampleLibraries sampleEnvironment)) (loginAndRefresh ++
          .start 5 (.revokeAllSessions sampleWallet "0-4") :: serveNext 5 0 3) []
        (.idle .empty),
        inputOf 3 r.1 = some (.refreshTokens sampleTokens.refreshToken) ∧
        r.2.returned 3 = true ∧ r.2.shared.refreshTokens.map (·.revoked) = [true, true] ∧
        ∃ x ∈ workingAuth.alone .rejected 4 [some "", some ""]
          (refreshTokens sampleLibraries sampleEnvironment sampleTokens.refreshToken) r.2.shared,
          True := by
      decide +kernel
    exact exists_run_of_replay workingAuth.perform_step hreplay
  have hexec := workingAuth.alone_exec AuthError.rejected 4 _ hx
  have htells : Says sampleLibraries sampleEnvironment sampleTokens.refreshToken
      ⟨"0-4", sampleWallet, .refresh, "0-6"⟩ :=
    ⟨"0123456789abcdef0123456789abcdef", _, by decide +kernel,
      sampleLibraries_lawful.decode_sign _ _ _ _⟩
  exact ⟨tr, t, x.1, x.2.1, x.2.2, hrun, hrows, hexec,
    theft_detected_iff sampleLibraries_lawful hrun hinput hreturned htells hexec⟩

end InverseArena.Backend.Auth
