import InverseArena.Backend.JsString

/-!
# Data of the authentication service

`backend/src/types/auth.ts`, the documents of `db/models/` that `authService.ts` and
`adminService.ts` read or write, and the libraries that the services call. Times are in
milliseconds, those of a token in seconds. The display name of a user is left out.
-/

namespace InverseArena.Backend.Auth

/-- `type` of a `JwtPayload`. -/
inductive TokenType where
  | access | refresh
  deriving DecidableEq, Repr

/-- `JwtPayload`; a missing `jti` is the empty string. -/
structure JwtPayload where
  sub : String
  wallet : String
  type : TokenType
  jti : String
  deriving DecidableEq, Repr

/-- `TokenPair`. -/
structure TokenPair where
  accessToken : String
  refreshToken : String
  deriving DecidableEq, Repr

/-- `NonceDocument`. -/
structure NonceDocument where
  id : ℕ
  walletAddress : String
  nonce : String
  used : Bool
  expiresAt : ℕ
  createdAt : ℕ
  deriving DecidableEq, Repr

/-- `UserDocument`. -/
structure UserDocument where
  id : String
  walletAddress : String
  joinedAt : ℕ
  lastLoginAt : ℕ
  deriving DecidableEq, Repr

/-- `RefreshTokenDocument`. -/
structure RefreshTokenDocument where
  id : ℕ
  tokenHash : String
  familyId : String
  userId : String
  used : Bool
  revoked : Bool
  expiresAt : ℕ
  deriving DecidableEq, Repr

/-- `ConfirmationTokenDocument`. -/
structure ConfirmationTokenDocument where
  id : ℕ
  adminId : String
  tokenHash : String
  action : String
  resourceId : String
  used : Bool
  expiresAt : ℕ
  deriving DecidableEq, Repr

/-- What the services throw: an `Error` with the status that is assigned to it, or
    whatever a library or a rejected request throws. -/
inductive AuthError where
  | error (message : String) (status : Option ℕ)
  | rejected
  deriving DecidableEq, Repr

/-- What a JSON Web Token that is signed with the secret says. -/
structure SignedPayload where
  payload : JwtPayload
  /-- `exp`. -/
  exp : ℕ
  deriving DecidableEq, Repr

/-- The libraries. -/
structure Libraries where
  /-- `jwt.sign(payload, secret, { expiresIn })` at the time `iat`. -/
  sign : JwtPayload → String → ℕ → ℕ → String
  /-- What the token says if it is signed with the secret. -/
  decode : String → String → Option SignedPayload
  /-- `createHash("sha256").update(token).digest("hex")`. -/
  hashToken : String → String
  /-- `Keypair.fromPublicKey(walletAddress).verify(..)`; `false` where it throws. -/
  verifySignature : String → String → String → Bool

namespace Libraries

/-- `jwt.verify(token, secret)` at a time in seconds; `none` where it throws. -/
def verify (lib : Libraries) (token secret : String) (now : ℕ) : Option JwtPayload :=
  match lib.decode token secret with
  | some signed => if now < signed.exp then some signed.payload else none
  | none => none

/-- What the libraries promise: a signed token says what was signed, and hashes do not
    collide. -/
structure Lawful (lib : Libraries) : Prop where
  decode_sign : ∀ payload secret iat expiresIn,
    lib.decode (lib.sign payload secret iat expiresIn) secret = some ⟨payload, iat + expiresIn⟩
  hash_injective : ∀ token token', lib.hashToken token = lib.hashToken token' → token = token'

/-- Only the expiry depends on the time. -/
theorem decode_of_verify {lib : Libraries} {token secret : String} {now : ℕ}
    {payload : JwtPayload} (h : lib.verify token secret now = some payload) :
    ∃ exp, lib.decode token secret = some ⟨payload, exp⟩ ∧ now < exp := by
  unfold verify at h
  split at h
  · rename_i signed hsigned
    split_ifs at h with hnow
    cases h
    exact ⟨signed.exp, hsigned, hnow⟩
  · cases h

end Libraries

/-! ## Libraries for samples -/

/-- A text that can be told from what follows it. -/
def quote : List Char → List Char
  | [] => ['.']
  | c :: cs => if c = '.' ∨ c = '/' then '/' :: c :: quote cs else c :: quote cs

/-- The text that was quoted, and what follows it. -/
def unquote : List Char → Option (List Char × List Char)
  | '.' :: rest => some ([], rest)
  | '/' :: c :: rest => (unquote rest).map fun r => (c :: r.1, r.2)
  | c :: rest => (unquote rest).map fun r => (c :: r.1, r.2)
  | [] => none

/-- The texts that were quoted. -/
def unquoteAll : ℕ → List Char → Option (List (List Char))
  | 0, _ => some []
  | n + 1, cs => (unquote cs).bind fun r => (unquoteAll n r.2).map (r.1 :: ·)

theorem unquote_quote (cs rest : List Char) : unquote (quote cs ++ rest) = some (cs, rest) := by
  induction cs with
  | nil => rfl
  | cons c cs ih =>
    unfold quote
    split_ifs with hc
    · show (unquote (quote cs ++ rest)).map _ = _
      rw [ih]
      rfl
    · obtain ⟨hdot, hslash⟩ := not_or.mp hc
      have hplain : unquote (c :: (quote cs ++ rest)) =
          (unquote (quote cs ++ rest)).map fun r => (c :: r.1, r.2) := by
        rw [unquote]
        · exact hdot
        · exact fun _ _ h _ => hslash h
      rw [List.cons_append, hplain, ih]
      rfl

theorem unquoteAll_flatMap (l : List (List Char)) :
    unquoteAll l.length (l.flatMap quote) = some l := by
  induction l with
  | nil => rfl
  | cons cs l ih =>
    show (unquote (quote cs ++ l.flatMap quote)).bind _ = _
    rw [unquote_quote]
    show (unquoteAll l.length (l.flatMap quote)).map _ = _
    rw [ih]
    rfl

/-- `type` as it stands in a token. -/
def TokenType.text : TokenType → List Char
  | access => ['a']
  | refresh => ['r']

/-- Tokens that show what they say, hashes that are the tokens, and signatures that show
    what they sign. -/
def sampleLibraries : Libraries where
  sign payload secret iat expiresIn := String.ofList <|
    [payload.sub.toList, payload.wallet.toList, payload.type.text, payload.jti.toList,
      secret.toList, List.replicate (iat + expiresIn) 's'].flatMap quote
  decode token secret :=
    match unquoteAll 6 token.toList with
    | some [sub, wallet, type, jti, secret', exp] =>
      if secret' = secret.toList then
        some ⟨⟨String.ofList sub, String.ofList wallet,
          if type = TokenType.access.text then .access else .refresh, String.ofList jti⟩,
          exp.length⟩
      else none
    | _ => none
  hashToken token := token
  verifySignature walletAddress nonce signature := signature = walletAddress ++ nonce

theorem sampleLibraries_lawful : sampleLibraries.Lawful where
  decode_sign := by
    rintro ⟨sub, wallet, type, jti⟩ secret iat expiresIn
    have hall := unquoteAll_flatMap [sub.toList, wallet.toList, type.text, jti.toList,
      secret.toList, List.replicate (iat + expiresIn) 's']
    have htype : (if type.text = TokenType.access.text then TokenType.access else .refresh) =
        type := by
      cases type
      · rfl
      · rfl
    unfold sampleLibraries
    dsimp only [List.length_cons, List.length_nil] at hall ⊢
    rw [String.toList_ofList, hall]
    simp [htype]
  hash_injective _ _ h := h

/-- The environment variables of the services, as they are read. -/
structure Environment where
  /-- `JWT_SECRET`. -/
  jwtSecret : Option String
  /-- `nonceTtlSeconds()`. -/
  nonceTtl : ℕ
  /-- `refreshTokenTtlSeconds()`. -/
  refreshTtl : ℕ
  /-- `accessTokenTtlSeconds()`. -/
  accessTtl : ℕ
  /-- `ttlSeconds()` of the admin service. -/
  adminTtl : ℕ

/-- An environment for samples. -/
def sampleEnvironment : Environment where
  jwtSecret := some "0123456789abcdef0123456789abcdef"
  nonceTtl := 300
  refreshTtl := 2
  accessTtl := 1
  adminTtl := 300

end InverseArena.Backend.Auth
