import InverseArena.Library.Json
import InverseArena.Library.Transition
import Mathlib.Logic.Function.Basic

/-!
# The response cache

`middleware/cache.ts`, `cache/cacheService.ts` and `middleware/errorHandler.ts` of the
backend, with any number of requests under way behind `cacheMiddleware`. A request takes
its awaits one at a time: Redis reads its key, the handler reads what it will answer,
`res.json` sends the answer, and Redis writes it. Between them any other step may come.
Redis may refuse a command, and an entry may be gone at any time, by its TTL or otherwise.
An invalidation counts as completed once Redis has deleted the key.

Handlers are left open, but for what becomes of the errors that they throw. The key of the
oracle, which a webhook writes as well, is left out.
-/

namespace InverseArena.Backend.Caching

open Transition

/-! ## Answers -/

/-- A JSON value; its numbers are doubles, and finite. -/
structure Body where
  json : Json
  writable : json.Writable

/-- What is sent by `res.status(status).json(body)`. -/
structure Reply where
  status : ℕ
  body : Body

/-- `defaultErrorCode(status)`. -/
def defaultErrorCode (status : ℕ) : String :=
  match status with
  | 400 => "BAD_REQUEST"
  | 401 => "UNAUTHORIZED"
  | 403 => "FORBIDDEN"
  | 404 => "NOT_FOUND"
  | 409 => "CONFLICT"
  | 410 => "GONE"
  | 429 => "RATE_LIMITED"
  | 503 => "SERVICE_UNAVAILABLE"
  | status => if 500 ≤ status then "INTERNAL_SERVER_ERROR" else "REQUEST_FAILED"

/-- What `errorHandler` reads of a value that is thrown: the issues of a `ZodError`, the
    message of an `Error`, and the fields `status`, `statusCode` and `code`. -/
structure Thrown where
  issues : Option Body
  message : Option String
  status : Option ℕ
  statusCode : Option ℕ
  code : Option String
  isHttpError : Bool

/-- `apiError(status, code, message)`. -/
def apiError (status : ℕ) (code message : String) : Thrown :=
  ⟨none, some message, some status, none, some code, true⟩

/-- A field of an object. -/
def field (key : String) (value : Json) : Text × Json := (.ofString key, value)

/-- A text as a JSON value. -/
def string (s : String) : Json := .string (.ofString s)

/-- `{ error: { code, message } }`. -/
def errorBody (code message : String) : Body where
  json := .object [field "error" (.object [field "code" (string code),
    field "message" (string message)])]
  writable := by simp [Json.Writable, field, string, Json.tokens, Json.fieldTokens]

/-- `{ error: { code, message, issues } }`. -/
def errorBodyWith (code message : String) (issues : Body) : Body where
  json := .object [field "error" (.object [field "code" (string code),
    field "message" (string message), field "issues" issues.json])]
  writable := by
    intro x hx
    refine issues.writable x ?_
    simpa [field, string, Json.tokens, Json.fieldTokens] using hx

/-- `errorHandler(err)`. -/
def errorHandler (err : Thrown) : Reply :=
  match err.issues with
  | some issues => ⟨400, errorBodyWith "VALIDATION_ERROR" "Validation error" issues⟩
  | none =>
    let message := err.message.getD "Internal server error"
    let status := (err.status.or err.statusCode).getD 500
    let code :=
      if err.isHttpError = true ∨ status < 500 then err.code.getD (defaultErrorCode status)
      else defaultErrorCode status
    ⟨status, errorBody code message⟩

theorem errorHandler_status (err : Thrown) : (errorHandler err).status =
    if err.issues.isSome then 400 else (err.status.or err.statusCode).getD 500 := by
  unfold errorHandler
  cases err.issues <;> rfl

theorem errorHandler_ne_null (err : Thrown) : (errorHandler err).body.json ≠ .null := by
  unfold errorHandler
  cases err.issues <;> exact nofun

/-- How a handler ends: with `res.json`, or with an error, which `asyncHandler` passes on to
    `errorHandler` and so to the same `res.json`. -/
inductive Outcome where
  | json (reply : Reply)
  | throws (err : Thrown)

/-- What the client is sent. -/
def Outcome.reply : Outcome → Reply
  | .json reply => reply
  | .throws err => errorHandler err

/-! ## `cacheService.ts` -/

/-- `cacheKeys.arenaStats(arenaId)`. -/
def arenaStats (arenaId : String) : String := "arena:stats:" ++ arenaId

/-- `cache.get(key)`, of what Redis holds: `none` for `null`, and for the `SyntaxError` of a
    text that cannot be parsed, which `cacheMiddleware` takes in the same way. -/
def get (data : Option Text) : Option Json :=
  match data with
  | none => none
  | some [] => none
  | some text =>
    match Json.parse text with
    | some .null => none
    | value => value

/-! ## Requests under way -/

/-- The reply that a handler has decided on, and how many invalidations its key had seen
    when the handler read. -/
structure Produced where
  reply : Reply
  epoch : ℕ

/-- A value in Redis: its text, and the reply whose body it is. -/
structure Entry where
  text : Text
  source : Produced

/-- Where a request stands. -/
inductive Phase where
  /-- In `await cache.get(key)`, before Redis reads. -/
  | looking
  /-- Redis has found a value. -/
  | found (value : Json) (source : Produced)
  /-- `next()` has been called. -/
  | handling
  /-- The handler has read what it answers. -/
  | answering (source : Produced)
  /-- The answer is sent, and `cache.set` is under way. -/
  | storing (source : Produced)
  | finished

/-- A response that has been sent: `hit` is its `X-Cache`, `epoch` how many invalidations
    its key had seen. -/
structure Served where
  key : String
  hit : Bool
  status : ℕ
  body : Json
  source : Produced
  epoch : ℕ

/-- Redis, the requests with their keys, the number of invalidations that concern each key,
    and what the handlers have produced and the clients been sent, the last one first. -/
structure State where
  store : String → Option Entry
  requests : List (String × Phase)
  epoch : String → ℕ
  produced : List (String × Produced)
  served : List Served

def State.initial : State := ⟨fun _ => none, [], fun _ => 0, [], []⟩

/-- The request `r` of `key` goes on to `phase`. -/
def State.move (s : State) (r : ℕ) (key : String) (phase : Phase) : State :=
  { s with requests := s.requests.set r (key, phase) }

/-- What `cache.get(key)` yields, with the reply that it comes from. -/
def State.lookup (s : State) (key : String) : Option (Json × Produced) := do
  let entry ← s.store key
  let value ← get (some entry.text)
  pure (value, entry.source)

/-- The steps; `reached` says whether Redis takes the command. -/
inductive Step where
  | arrive (key : String)
  | read (r : ℕ) (reached : Bool)
  | hit (r : ℕ)
  | compute (r : ℕ) (outcome : Outcome)
  | answer (r : ℕ)
  | write (r : ℕ) (reached : Bool)
  | expire (key : String)
  | invalidateArenaStats (arenaId : String) (reached : Bool)

/-- `concerns arenaId key`: the responses under `key` are among those that the invalidation
    of an arena is about. -/
abbrev Concern := String → String → Bool

/-- What a step leads to; `none` where it cannot be taken. -/
def Step.next (concerns : Concern) : Step → State → Option State
  | .arrive key, s => some { s with requests := s.requests ++ [(key, .looking)] }
  | .read r reached, s =>
    match s.requests[r]? with
    | some (key, .looking) =>
      match if reached then s.lookup key else none with
      | some (value, source) => some (s.move r key (.found value source))
      | none => some (s.move r key .handling)
    | _ => none
  | .hit r, s =>
    match s.requests[r]? with
    | some (key, .found value source) => some
        { s.move r key .finished with
          served := ⟨key, true, 200, value, source, s.epoch key⟩ :: s.served }
    | _ => none
  | .compute r outcome, s =>
    match s.requests[r]? with
    | some (key, .handling) => some
        { s.move r key (.answering ⟨outcome.reply, s.epoch key⟩) with
          produced := (key, ⟨outcome.reply, s.epoch key⟩) :: s.produced }
    | _ => none
  | .answer r, s =>
    match s.requests[r]? with
    | some (key, .answering source) => some
        { s.move r key (.storing source) with
          served := ⟨key, false, source.reply.status, source.reply.body.json, source,
            s.epoch key⟩ :: s.served }
    | _ => none
  | .write r reached, s =>
    match s.requests[r]? with
    | some (key, .storing source) =>
      if reached then some
        { s.move r key .finished with
          store := Function.update s.store key
            (some ⟨source.reply.body.json.stringify, source⟩) }
      else some (s.move r key .finished)
    | _ => none
  | .expire key, s => some { s with store := Function.update s.store key none }
  | .invalidateArenaStats arenaId reached, s =>
    if reached then some
      { s with
        store := Function.update s.store (arenaStats arenaId) none
        epoch := fun key => if concerns arenaId key then s.epoch key + 1 else s.epoch key }
    else some s

/-- A step of the system. -/
def Step.Leads (concerns : Concern) (s : State) (a : Step) (u : State) : Prop :=
  a.next concerns s = some u

/-! ## What is asked of the responses -/

/-- A response is one that a handler has produced for its key, with its status and body, and
    no invalidation that concerns the key has completed in between. -/
structure Served.Transparent (s : State) (v : Served) : Prop where
  produced : (v.key, v.source) ∈ s.produced
  status : v.status = v.source.reply.status
  body : v.body = v.source.reply.body.json
  fresh : v.source.epoch = v.epoch

/-- All responses so far are. -/
def State.Transparent (s : State) : Prop := ∀ v ∈ s.served, v.Transparent s

end InverseArena.Backend.Caching
