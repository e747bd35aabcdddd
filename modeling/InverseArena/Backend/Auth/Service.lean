import InverseArena.Backend.Auth.Types
import InverseArena.Library.Async

/-!
# The authentication service

`backend/src/services/authService.ts`, `cache/sessionStore.ts` and the confirmation
tokens of `services/adminService.ts`, as programs that await MongoDB and Redis. The
clock and the random numbers are requests too.
-/

namespace InverseArena.Backend.Auth

open Async

/-! ## Requests -/

/-- What the services await. -/
inductive AuthRequest where
  /-- `Date.now()`. -/
  | now
  /-- `randomUUID()`, or `randomBytes(32).toString("hex")`. -/
  | random
  /-- `NonceModel.updateMany({ walletAddress, used: false, expiresAt: { $gt: now } }, ..)`. -/
  | retireNonces (walletAddress : String) (now : ℕ)
  /-- `NonceModel.create({ walletAddress, nonce, used: false, expiresAt })`. -/
  | createNonce (walletAddress nonce : String) (expiresAt : ℕ)
  /-- `NonceModel.findOne({ walletAddress, used: false, expiresAt: { $gt: now } })`, the
      newest one. -/
  | findNonce (walletAddress : String) (now : ℕ)
  /-- `NonceModel.findByIdAndUpdate(id, { used: true })`. -/
  | useNonce (id : ℕ)
  /-- `UserModel.findOneAndUpdate({ walletAddress }, .., { upsert: true, new: true })`. -/
  | upsertUser (walletAddress : String) (now : ℕ)
  /-- `RefreshTokenModel.create({ .., used: false, revoked: false, expiresAt })`. -/
  | createRefreshToken (tokenHash familyId userId : String) (expiresAt : ℕ)
  /-- `RefreshTokenModel.findOne({ tokenHash })`. -/
  | findRefreshToken (tokenHash : String)
  /-- `RefreshTokenModel.findByIdAndUpdate(id, { used: true })`. -/
  | useRefreshToken (id : ℕ)
  /-- `RefreshTokenModel.updateMany({ familyId }, { $set: { revoked: true } })`. -/
  | revokeFamily (familyId : String)
  /-- `RefreshTokenModel.updateMany({ userId, revoked: false }, ..)`. -/
  | revokeUser (userId : String)
  /-- `ConfirmationTokenModel.create({ .., used: false, expiresAt })`. -/
  | createConfirmation (adminId tokenHash action resourceId : String) (expiresAt : ℕ)
  /-- `ConfirmationTokenModel.findOne({ tokenHash })`. -/
  | findConfirmation (tokenHash : String)
  /-- `ConfirmationTokenModel.findByIdAndUpdate(id, { used: true })`. -/
  | useConfirmation (id : ℕ)
  /-- `client.get(jtiKey(jti))`. -/
  | get (jti : String)
  /-- `client.set(jtiKey(jti), walletAddress, "EX", ttl)`. -/
  | set (jti walletAddress : String) (ttl : ℕ)
  /-- `client.sadd(walletKey(walletAddress), jti)`. -/
  | sadd (walletAddress jti : String)
  /-- `client.del(jtiKey(jti))`. -/
  | del (jti : String)
  /-- `client.srem(walletKey(walletAddress), jti)`. -/
  | srem (walletAddress jti : String)
  /-- `client.smembers(walletKey(walletAddress))`. -/
  | smembers (walletAddress : String)
  /-- `client.del(walletKey(walletAddress))`. -/
  | delWallet (walletAddress : String)
  /-- `pipeline.exec()`, after a `del` of each `jtiKey(jti)` and of the wallet's key. -/
  | execDeletes (jtis : List String) (walletAddress : String)

/-- The deletions of a pipeline that Redis has executed: those of the keys of some jtis,
    and that of the wallet's key. `exec` resolves with the errors of the others. -/
structure Executed where
  jtis : List String
  wallet : Bool

/-- What a fulfilled request yields. -/
abbrev AuthAnswer : AuthRequest → Type
  | .now => ℕ
  | .random => String
  | .findNonce _ _ => Option NonceDocument
  | .upsertUser _ _ => UserDocument
  | .findRefreshToken _ => Option RefreshTokenDocument
  | .findConfirmation _ => Option ConfirmationTokenDocument
  | .get _ => Option String
  | .smembers _ => List String
  | .retireNonces _ _ => Unit
  | .createNonce _ _ _ => Unit
  | .useNonce _ => Unit
  | .createRefreshToken _ _ _ _ => Unit
  | .useRefreshToken _ => Unit
  | .revokeFamily _ => Unit
  | .revokeUser _ => Unit
  | .createConfirmation _ _ _ _ _ => Unit
  | .useConfirmation _ => Unit
  | .set _ _ _ => Unit
  | .sadd _ _ => Unit
  | .del _ => Unit
  | .srem _ _ => Unit
  | .delWallet _ => Unit
  | .execDeletes _ _ => Executed

/-- A program of the services. -/
abbrev AuthProgram := Async AuthAnswer AuthError

/-- Awaits the answer to `q`. -/
def call (q : AuthRequest) : AuthProgram (AuthAnswer q) := request q

/-- `Object.assign(new Error(message), { status: 401 })`. -/
def unauthorized (message : String) : AuthError := .error message (some 401)

/-! ## The session store -/

/-- `addSession(walletAddress, jti, ttlSeconds)`. -/
def addSession (walletAddress jti : String) (ttlSeconds : ℕ) : AuthProgram Unit := do
  call (.set jti walletAddress (max 1 ttlSeconds))
  call (.sadd walletAddress jti)

/-- `isActive(jti)`. -/
def isActive (jti : String) : AuthProgram Bool := do
  let wallet ← call (.get jti)
  pure wallet.isSome

/-- `removeSession(jti)`. -/
def removeSession (jti : String) : AuthProgram Unit := do
  let wallet ← call (.get jti)
  call (.del jti)
  match wallet with
  | none => pure ()
  | some "" => pure ()
  | some wallet => call (.srem wallet jti)

/-- `removeAllSessions(walletAddress)`; what `exec` resolves with is not looked at. -/
def removeAllSessions (walletAddress : String) : AuthProgram ℕ := do
  let jtis ← call (.smembers walletAddress)
  if jtis.length = 0 then
    call (.delWallet walletAddress)
    pure 0
  else
    let _ ← call (.execDeletes jtis walletAddress)
    pure jtis.length

/-! ## The authentication service -/

variable (lib : Libraries) (env : Environment)

/-- `getJwtSecret()`. -/
def getJwtSecret : Except AuthError String :=
  match env.jwtSecret with
  | none => .error (.error "JWT_SECRET must be set and at least 32 characters" none)
  | some secret =>
    if jsLength secret.toList < 32 then
      .error (.error "JWT_SECRET must be set and at least 32 characters" none)
    else .ok secret

/-- `validateWalletAddress(walletAddress)`. -/
def validateWalletAddress (walletAddress : String) : AuthProgram Unit :=
  check (isPublicKey walletAddress.toList = true)
    (.error "Invalid Stellar wallet address" (some 400))

/-- `NONCE_PREFIX`. -/
def NONCE_PREFIX : String := "Sign this message to authenticate with InverseArena:\n"

/-- `requestNonce(walletAddress)` (lines 56-71). -/
def requestNonce (walletAddress : String) : AuthProgram (String × ℕ) := do
  validateWalletAddress walletAddress
  let rawHex ← call .random
  let nonce := NONCE_PREFIX ++ rawHex
  let expiresAt := (← call .now) + env.nonceTtl * 1000
  call (.retireNonces walletAddress (← call .now))
  call (.createNonce walletAddress nonce expiresAt)
  pure (nonce, expiresAt)

/-- The payload of `jwt.verify(token, getJwtSecret())`, or the error of its `catch`. -/
def verifyToken (token message : String) : AuthProgram JwtPayload := do
  let now ← call .now
  match getJwtSecret env with
  | .error _ => throw (unauthorized message)
  | .ok secret => orThrow (lib.verify token secret (now / 1000)) (unauthorized message)

/-- `existingFamilyId ?? generateFamilyId()`. -/
def familyOf : Option String → AuthProgram String
  | some familyId => pure familyId
  | none => call .random

/-- `issueTokenPair(userId, walletAddress, existingFamilyId)` (lines 243-289). -/
def issueTokenPair (userId walletAddress : String) (existingFamilyId : Option String) :
    AuthProgram TokenPair := do
  let secret ← done (getJwtSecret env)
  let accessJti ← call .random
  let refreshJti ← call .random
  let accessToken :=
    lib.sign ⟨userId, walletAddress, .access, accessJti⟩ secret ((← call .now) / 1000) env.accessTtl
  let refreshToken :=
    lib.sign ⟨userId, walletAddress, .refresh, refreshJti⟩ secret ((← call .now) / 1000)
      env.refreshTtl
  let familyId ← familyOf existingFamilyId
  let expiresAt := (← call .now) + env.refreshTtl * 1000
  call (.createRefreshToken (lib.hashToken refreshToken) familyId userId expiresAt)
  addSession walletAddress accessJti env.accessTtl
  addSession walletAddress refreshJti env.refreshTtl
  pure ⟨accessToken, refreshToken⟩

/-- `verifySignatureAndLogin(walletAddress, signature)` (lines 73-130), without the user
    that is returned beside the tokens. -/
def verifySignatureAndLogin (walletAddress signature : String) : AuthProgram TokenPair := do
  validateWalletAddress walletAddress
  let found ← call (.findNonce walletAddress (← call .now))
  let nonceRecord ← orThrow found (unauthorized "No valid nonce found — request a new one")
  check (lib.verifySignature walletAddress nonceRecord.nonce signature = true)
    (unauthorized "Invalid signature")
  call (.useNonce nonceRecord.id)
  let user ← call (.upsertUser walletAddress (← call .now))
  issueTokenPair lib env user.id walletAddress none

/-- What `refreshTokens` does with a stored token (lines 160-192). -/
def exchange (payload : JwtPayload) (storedToken : RefreshTokenDocument) :
    AuthProgram TokenPair :=
  if storedToken.revoked = true then throw (unauthorized "Refresh token has been revoked")
  else if storedToken.used = true then do
    call (.revokeFamily storedToken.familyId)
    let _ ← removeAllSessions payload.wallet
    throw (unauthorized "Refresh token reuse detected — all sessions invalidated")
  else do
    call (.useRefreshToken storedToken.id)
    if payload.jti ≠ "" then removeSession payload.jti
    issueTokenPair lib env payload.sub payload.wallet (some storedToken.familyId)

/-- `refreshTokens(refreshToken)` (lines 132-192). -/
def refreshTokens (refreshToken : String) : AuthProgram TokenPair := do
  let payload ← verifyToken lib env refreshToken "Invalid or expired refresh token"
  check (payload.type = .refresh) (unauthorized "Token is not a refresh token")
  if payload.jti ≠ "" then
    let active ← isActive payload.jti
    check (active = true) (unauthorized "Refresh token has been revoked")
  let found ← call (.findRefreshToken (lib.hashToken refreshToken))
  let storedToken ← orThrow found (unauthorized "Refresh token has been revoked or expired")
  exchange lib env payload storedToken

/-- `logout(jti)`. -/
def logout (jti : String) : AuthProgram Unit := removeSession jti

/-- `revokeAllSessions(walletAddress, userId)`. -/
def revokeAllSessions (walletAddress userId : String) : AuthProgram ℕ := do
  let revokedCount ← removeAllSessions walletAddress
  call (.revokeUser userId)
  pure revokedCount

/-- `verifyAccessToken(token)` (lines 218-241). -/
def verifyAccessToken (token : String) : AuthProgram JwtPayload := do
  let payload ← verifyToken lib env token "Invalid or expired access token"
  check (payload.type = .access) (unauthorized "Token is not an access token")
  check (payload.jti ≠ "") (unauthorized "Session has been revoked")
  let active ← isActive payload.jti
  check (active = true) (unauthorized "Session has been revoked")
  pure payload

/-! ## Confirmation tokens -/

/-- `requestToken(adminId, action, resourceId)` of the admin service (lines 18-37). -/
def requestToken (adminId action resourceId : String) : AuthProgram (String × ℕ) := do
  let rawToken ← call .random
  let expiresAt := (← call .now) + env.adminTtl * 1000
  call (.createConfirmation adminId (lib.hashToken rawToken) action resourceId expiresAt)
  pure (rawToken, expiresAt)

/-- The checks of `verifyAndConsumeToken` on the stored token (lines 49-72). -/
def checkConfirmation (record : ConfirmationTokenDocument) (action resourceId adminId : String)
    (now : ℕ) : AuthProgram Unit := do
  check (record.used = false) (.error "Confirmation token already used" (some 409))
  check (now ≤ record.expiresAt) (.error "Confirmation token expired" (some 410))
  check (record.action = action ∧ record.resourceId = resourceId)
    (.error "Confirmation token action or resource mismatch" (some 403))
  check (record.adminId = adminId)
    (.error "Confirmation token belongs to a different admin" (some 403))

/-- `verifyAndConsumeToken(rawToken, action, resourceId, adminId)` (lines 39-75). -/
def verifyAndConsumeToken (rawToken action resourceId adminId : String) : AuthProgram Unit := do
  let found ← call (.findConfirmation (lib.hashToken rawToken))
  let record ← orThrow found (.error "Confirmation token not found" (some 404))
  checkConfirmation record action resourceId adminId (← call .now)
  call (.useConfirmation record.id)

/-! ## Calls -/

/-- A call to one of the services. -/
inductive AuthCall where
  | requestNonce (walletAddress : String)
  | verifySignatureAndLogin (walletAddress signature : String)
  | refreshTokens (refreshToken : String)
  | logout (jti : String)
  | revokeAllSessions (walletAddress userId : String)
  | verifyAccessToken (token : String)
  | requestToken (adminId action resourceId : String)
  | verifyAndConsumeToken (rawToken action resourceId adminId : String)
  deriving DecidableEq, Repr

/-- What a call returns. -/
inductive AuthResult where
  | nothing
  | text (s : String) (expiresAt : ℕ)
  | tokens (pair : TokenPair)
  | count (revokedCount : ℕ)
  | payload (payload : JwtPayload)
  deriving DecidableEq, Repr

/-- The program of a call. -/
def AuthCall.program : AuthCall → AuthProgram AuthResult
  | requestNonce walletAddress => do
    let (nonce, expiresAt) ← Auth.requestNonce env walletAddress
    pure (.text nonce expiresAt)
  | verifySignatureAndLogin walletAddress signature => do
    let pair ← Auth.verifySignatureAndLogin lib env walletAddress signature
    pure (.tokens pair)
  | refreshTokens refreshToken => do
    let pair ← Auth.refreshTokens lib env refreshToken
    pure (.tokens pair)
  | logout jti => do
    Auth.logout jti
    pure .nothing
  | revokeAllSessions walletAddress userId => do
    let revokedCount ← Auth.revokeAllSessions walletAddress userId
    pure (.count revokedCount)
  | verifyAccessToken token => do
    let payload ← Auth.verifyAccessToken lib env token
    pure (.payload payload)
  | requestToken adminId action resourceId => do
    let (token, expiresAt) ← Auth.requestToken lib env adminId action resourceId
    pure (.text token expiresAt)
  | verifyAndConsumeToken rawToken action resourceId adminId => do
    Auth.verifyAndConsumeToken lib rawToken action resourceId adminId
    pure .nothing

end InverseArena.Backend.Auth
